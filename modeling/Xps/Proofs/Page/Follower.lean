import Xps.Proofs.Element.Opened
import Xps.Proofs.Journal.Nesting

/-!
# Followers of events

A painter and a collector both follow the events of a page: they keep a stack of open elements, and
save a state in front of elements of some kinds, to give it back at their end. Whether to save is
decided by the name at the start, and whether to give back by the open element at the end. And yet,
for events in any order, what is saved are exactly the states in front of the elements that are
still open (`Follower.SavesExactly`).

The invariant (`Follower.Tracks`) is carried over one event by what an event does to the open
elements and the saved states (`Follower.Scoped`), and from there over all events.
-/

namespace Xps

/-- Something that follows events and saves states in front of elements of some kinds. -/
structure Follower (α S : Type) where
  step : α → MarkupEvent → Journaled α
  /-- Does what the end of an element asks for. -/
  process : α → Node → Journaled (Node × α)
  scopes : α → ScopeStack
  withScopes : α → ScopeStack → α
  state : α → S
  /-- The states to give back, the innermost first. -/
  saved : α → List S
  saves : ElementKind → Bool

/-- A state is given back that was not saved. -/
def Entry.isUnbalanced : Entry → Bool
  | notice .unbalancedState | notice .unbalancedTransform => true
  | _ => false

/-- No state is given back that was not saved. -/
def Journaled.Balanced {α : Type} (x : Journaled α) : Prop := x.All fun e => e.isUnbalanced = false

theorem Journaled.Quiet.balanced {α : Type} {x : Journaled α} (h : x.Quiet) : x.Balanced :=
  h.imp fun e he => by
    cases e with
    | notice n => cases n <;> first | rfl | cases he
    | _ => rfl

theorem ScopeStack.balanced_pop (s : ScopeStack) (name : String) : (s.pop name).Balanced := by
  unfold pop Journaled.Balanced
  split
  · simp [Journaled.note, Entry.isUnbalanced]
  · dsimp only
    split <;> simp [Journaled.note, Entry.isUnbalanced]

namespace Follower

variable {α S : Type}

def run (v : Follower α S) (a : α) (events : List MarkupEvent) : Journaled α :=
  events.foldlM v.step a

/-- What is there after some events. -/
def after (v : Follower α S) (a : α) (events : List MarkupEvent) : α := (v.run a events).value

theorem run_concat (v : Follower α S) (a : α) (past : List MarkupEvent) (e : MarkupEvent) :
    v.run a (past ++ [e]) = v.run a past >>= fun b => v.step b e := by
  simp [run, List.foldlM_append]

theorem after_concat (v : Follower α S) (a : α) (past : List MarkupEvent) (e : MarkupEvent) :
    v.after a (past ++ [e]) = (v.step (v.after a past) e).value := by
  unfold after
  rw [run_concat]
  rfl

/-- Closes the innermost element. -/
def stop (v : Follower α S) (a : α) (name : String) : Journaled α := do
  match ← (v.scopes a).pop name with
  | (none, _) => return a
  | (some node, scopes) =>
    let (node, a) ← v.process (v.withScopes a scopes) node
    return v.withScopes a ((v.scopes a).attach node)

/-- What events do to the open elements and the saved states. -/
structure Scoped (v : Follower α S) : Prop where
  document (a : α) : v.step a .document = pure a
  /-- A start opens an element and saves the state, if the element asks for it. -/
  start (a : α) (name : String) (attributes : Attributes) :
    let x := v.step a (.start name attributes)
    (v.scopes x.value).tags = (name, attributes) :: (v.scopes a).tags ∧
      v.saved x.value = (if v.saves (.ofName name) then v.state a :: v.saved a else v.saved a) ∧
      x.Quiet
  stop (a : α) (name : String) : v.step a (.stop name) = v.stop a name
  /-- The end of an element that saved the state gives it back, whatever else it does. -/
  processScope (a : α) (n : Node) {s : S} {saved : List S} (hn : v.saves n.kind)
    (hsaved : v.saved a = s :: saved) :
    let x := v.process a n
    v.scopes x.value.2 = v.scopes a ∧ v.state x.value.2 = s ∧ v.saved x.value.2 = saved ∧ x.Quiet
  /-- The end of any other element keeps the saved states. -/
  processOther (a : α) (n : Node) (hn : v.saves n.kind = false) :
    let x := v.process a n
    v.scopes x.value.2 = v.scopes a ∧ v.saved x.value.2 = v.saved a ∧ x.Quiet
  scopes_withScopes (a : α) (s : ScopeStack) : v.scopes (v.withScopes a s) = s
  state_withScopes (a : α) (s : ScopeStack) : v.state (v.withScopes a s) = v.state a
  saved_withScopes (a : α) (s : ScopeStack) : v.saved (v.withScopes a s) = v.saved a

namespace Scoped

variable {v : Follower α S} {a : α}

theorem stop_unopened (hv : v.Scoped) (h : (v.scopes a).nodes = []) (name : String) :
    let x := v.step a (.stop name)
    x.value = a ∧ x.Balanced := by
  have hpop := ScopeStack.value_pop_nil h name
  rw [hv.stop]
  unfold Follower.stop
  refine ⟨?_, Journaled.all_bind.2 ⟨(v.scopes a).balanced_pop name, ?_⟩⟩
  · rw [Journaled.value_bind, hpop]
    rfl
  · rw [hpop]
    exact Journaled.all_pure a

/-- The end of an open element processes the element and hands it to the one around it. -/
theorem stop_opened (hv : v.Scoped) {n : Node} {nodes : List Node}
    (h : (v.scopes a).nodes = n :: nodes) (name : String) :
    let x := v.step a (.stop name)
    let y := v.process (v.withScopes a ⟨nodes⟩) n
    x.value = v.withScopes y.value.2 ((v.scopes y.value.2).attach y.value.1) ∧
      (y.Quiet → x.Balanced) := by
  have hpop := ScopeStack.value_pop_cons h name
  rw [hv.stop]
  unfold Follower.stop
  refine ⟨?_, fun hy => Journaled.all_bind.2 ⟨(v.scopes a).balanced_pop name, ?_⟩⟩
  · rw [Journaled.value_bind, hpop]
    rfl
  · rw [hpop]
    exact Journaled.all_bind.2 ⟨hy.balanced, Journaled.all_pure _⟩

theorem stop_scope (hv : v.Scoped) {n : Node} {nodes : List Node} {s : S} {saved : List S}
    (h : (v.scopes a).nodes = n :: nodes) (hn : v.saves n.kind) (hsaved : v.saved a = s :: saved)
    (name : String) :
    let x := v.step a (.stop name)
    (v.scopes x.value).tags = ScopeStack.tags ⟨nodes⟩ ∧ v.state x.value = s ∧
      v.saved x.value = saved ∧ x.Balanced := by
  obtain ⟨hvalue, hbalanced⟩ := hv.stop_opened h name
  obtain ⟨hscopes, hstate, hrest, hquiet⟩ :=
    hv.processScope (v.withScopes a ⟨nodes⟩) n hn ((hv.saved_withScopes a _).trans hsaved)
  refine ⟨?_, ?_, ?_, hbalanced hquiet⟩
  · rw [hvalue, hv.scopes_withScopes, ScopeStack.tags_attach, hscopes, hv.scopes_withScopes]
  · rw [hvalue, hv.state_withScopes, hstate]
  · rw [hvalue, hv.saved_withScopes, hrest]

theorem stop_other (hv : v.Scoped) {n : Node} {nodes : List Node}
    (h : (v.scopes a).nodes = n :: nodes) (hn : v.saves n.kind = false) (name : String) :
    let x := v.step a (.stop name)
    (v.scopes x.value).tags = ScopeStack.tags ⟨nodes⟩ ∧ v.saved x.value = v.saved a ∧
      x.Balanced := by
  obtain ⟨hvalue, hbalanced⟩ := hv.stop_opened h name
  obtain ⟨hscopes, hrest, hquiet⟩ := hv.processOther (v.withScopes a ⟨nodes⟩) n hn
  refine ⟨?_, ?_, hbalanced hquiet⟩
  · rw [hvalue, hv.scopes_withScopes, ScopeStack.tags_attach, hscopes, hv.scopes_withScopes]
  · rw [hvalue, hv.saved_withScopes, hrest, hv.saved_withScopes]

end Scoped

/-- After some events, what is open are the elements of the events, and what is saved are the states
in front of those that save one. -/
structure Tracks (v : Follower α S) (a : α) (events : List MarkupEvent) : Prop where
  tags : (v.scopes (v.after a events)).tags = (opened events).map OpenElement.tag
  saved : v.saved (v.after a events) =
    ((opened events).filter fun o => v.saves o.kind).map fun o => v.state (v.after a o.before)
  balanced : (v.run a events).Balanced

/-- Besides, there is one saved state for each open element that saves one, and the end of such an
element gives back the state in front of it. -/
structure SavesExactly (v : Follower α S) (a : α) (events : List MarkupEvent) : Prop
    extends Tracks v a events where
  length : (v.saved (v.after a events)).length =
    (v.scopes (v.after a events)).nodes.countP fun n => v.saves n.kind
  restored (name : String) {o : OpenElement} {outer : List OpenElement}
    (h : opened events = o :: outer) (ho : v.saves o.kind) :
    v.state (v.after a (events ++ [.stop name])) = v.state (v.after a o.before)

section

variable {v : Follower α S} {a : α} {past : List MarkupEvent}

namespace Tracks

/-- Nothing is open exactly if the events left nothing open. -/
theorem nodes_eq_nil (h : v.Tracks a past) (hnodes : (v.scopes (v.after a past)).nodes = []) :
    opened past = [] := by
  have htags := h.tags
  rw [ScopeStack.tags, hnodes] at htags
  exact List.map_eq_nil_iff.1 htags.symm

/-- The innermost element is the innermost one of the events. -/
theorem nodes_eq_cons (h : v.Tracks a past) {n : Node} {nodes : List Node}
    (hnodes : (v.scopes (v.after a past)).nodes = n :: nodes) :
    ∃ o outer, opened past = o :: outer ∧ o.kind = n.kind ∧ o.attributes = n.attributes ∧
      ScopeStack.tags ⟨nodes⟩ = outer.map OpenElement.tag := by
  have htags := h.tags
  rw [ScopeStack.tags, hnodes, List.map_cons] at htags
  obtain ⟨o, outer, hopened, htag, houter⟩ := List.map_eq_cons_iff.1 htags.symm
  have hname : o.name = n.name := congrArg Prod.fst htag
  exact ⟨o, outer, hopened, congrArg ElementKind.ofName hname, congrArg Prod.snd htag,
    houter.symm⟩

/-- One more event, by what it leaves. -/
theorem of_step (h : v.Tracks a past) {e : MarkupEvent}
    (htags : (v.scopes (v.step (v.after a past) e).value).tags =
      (opened (past ++ [e])).map OpenElement.tag)
    (hsaved : v.saved (v.step (v.after a past) e).value =
      ((opened (past ++ [e])).filter fun o => v.saves o.kind).map fun o =>
        v.state (v.after a o.before))
    (hstep : (v.step (v.after a past) e).Balanced) : v.Tracks a (past ++ [e]) := by
  refine ⟨?_, ?_, ?_⟩
  · rwa [after_concat]
  · rwa [after_concat]
  · rw [run_concat]
    exact Journaled.all_bind.2 ⟨h.balanced, hstep⟩

theorem concat_start (hv : v.Scoped) (h : v.Tracks a past) (name : String)
    (attributes : Attributes) : v.Tracks a (past ++ [.start name attributes]) := by
  obtain ⟨htags, hsaved, hquiet⟩ := hv.start (v.after a past) name attributes
  refine h.of_step ?_ ?_ hquiet.balanced
  · rw [htags, h.tags, opened_start]
    rfl
  · rw [hsaved, h.saved, opened_start]
    cases hkind : v.saves (.ofName name) <;> simp [OpenElement.kind, hkind]

theorem concat_stop (hv : v.Scoped) (h : v.Tracks a past) (name : String) :
    v.Tracks a (past ++ [.stop name]) := by
  cases hnodes : (v.scopes (v.after a past)).nodes with
  | nil =>
    obtain ⟨hvalue, hbalanced⟩ := hv.stop_unopened hnodes name
    have hopened : opened (past ++ [.stop name]) = opened past := by
      rw [opened_stop, h.nodes_eq_nil hnodes, List.tail_nil]
    refine h.of_step ?_ ?_ hbalanced
    · rw [hvalue, hopened, h.tags]
    · rw [hvalue, hopened, h.saved]
  | cons n nodes =>
    obtain ⟨o, outer, hopened, hkind, -, houter⟩ := h.nodes_eq_cons hnodes
    have hclosed : opened (past ++ [.stop name]) = outer := by
      rw [opened_stop, hopened, List.tail_cons]
    have hsaved := h.saved
    rw [hopened] at hsaved
    -- The saved state on top is that of the element exactly if the element saved one.
    cases hn : v.saves n.kind with
    | true =>
      rw [List.filter_cons_of_pos (by rw [hkind, hn]), List.map_cons] at hsaved
      obtain ⟨htags, -, hrest, hbalanced⟩ := hv.stop_scope hnodes hn hsaved name
      exact h.of_step (by rw [htags, hclosed, houter]) (by rw [hrest, hclosed]) hbalanced
    | false =>
      rw [List.filter_cons_of_neg (by rw [hkind, hn]; decide)] at hsaved
      obtain ⟨htags, hrest, hbalanced⟩ := hv.stop_other hnodes hn name
      exact h.of_step (by rw [htags, hclosed, houter]) (by rw [hrest, hsaved, hclosed]) hbalanced

theorem concat (hv : v.Scoped) (h : v.Tracks a past) (e : MarkupEvent) :
    v.Tracks a (past ++ [e]) := by
  cases e with
  | document =>
    have hstep := hv.document (v.after a past)
    refine h.of_step ?_ ?_ (hstep ▸ Journaled.all_pure _)
    · rw [hstep, opened_document]
      exact h.tags
    · rw [hstep, opened_document]
      exact h.saved
  | start name attributes => exact h.concat_start hv name attributes
  | stop name => exact h.concat_stop hv name

theorem append (hv : v.Scoped) (h : v.Tracks a past) (events : List MarkupEvent) :
    v.Tracks a (past ++ events) := by
  induction events generalizing past with
  | nil => rwa [List.append_nil]
  | cons e events ih =>
    rw [← List.singleton_append, ← List.append_assoc]
    exact ih (h.concat hv e)

theorem length (h : v.Tracks a past) :
    (v.saved (v.after a past)).length =
      (v.scopes (v.after a past)).nodes.countP fun n => v.saves n.kind := by
  have hcount := congrArg (List.countP fun tag => v.saves (.ofName tag.1)) h.tags
  rw [ScopeStack.tags, List.countP_map, List.countP_map] at hcount
  rw [h.saved, List.length_map, ← List.countP_eq_length_filter]
  exact hcount.symm

theorem restored (hv : v.Scoped) (h : v.Tracks a past) (name : String) {o : OpenElement}
    {outer : List OpenElement} (ho : opened past = o :: outer) (hsaves : v.saves o.kind) :
    v.state (v.after a (past ++ [.stop name])) = v.state (v.after a o.before) := by
  cases hnodes : (v.scopes (v.after a past)).nodes with
  | nil => cases ho.symm.trans (h.nodes_eq_nil hnodes)
  | cons n nodes =>
    obtain ⟨o', outer', ho', hkind, -⟩ := h.nodes_eq_cons hnodes
    obtain ⟨rfl, rfl⟩ := List.cons.inj (ho.symm.trans ho')
    have hsaved := h.saved
    rw [ho, List.filter_cons_of_pos (by exact hsaves), List.map_cons] at hsaved
    rw [after_concat]
    exact (hv.stop_scope hnodes (hkind ▸ hsaves) hsaved name).2.1

end Tracks

theorem tracks_nil (hscopes : v.scopes a = {}) (hsaved : v.saved a = []) : v.Tracks a [] :=
  ⟨congrArg ScopeStack.tags hscopes, hsaved, Journaled.all_pure _⟩

/-- A follower that begins without open elements and saved states saves exactly. -/
theorem Scoped.savesExactly_of_fresh (hv : v.Scoped) (hscopes : v.scopes a = {})
    (hsaved : v.saved a = []) (events : List MarkupEvent) : v.SavesExactly a events := by
  have h : v.Tracks a events := (tracks_nil hscopes hsaved).append hv events
  exact { h with length := h.length, restored := fun name _ _ => h.restored hv name }

end

end Follower

end Xps
