import Xps.PathData.Reader
import Xps.Proofs.PathData.Slicing

/-!
# Subpaths

The subpaths of a path are runs of its geometry, which is all but the fill rules. They lie one
behind the other as in the path, and nothing is lost or repeated. Two neighbours lie in different
subpaths only if the second one is a move or a fill rule stands between them (`subdivides_subpaths`).

So a subpath begins with a move, or with the first geometry of the path, or behind a fill rule. The
last of these is what keeps a path from having moves in front of all its subpaths but the first
(`ledByMoves_parse_iff`, `not_ledByMoves_parse`).
-/

namespace Xps

/-! ## Geometry -/

namespace PathSegment

/-- All but the fill rules of some segments. -/
def geometry (segments : List PathSegment) : List PathSegment :=
  segments.filter fun s => !s.isFillRule

/-- A segment that needs a point to begin at. -/
def isDrawing (s : PathSegment) : Bool := !s.isFillRule && !s.isMove

@[simp] theorem geometry_nil : geometry [] = [] := rfl

@[simp] theorem geometry_append (front back : List PathSegment) :
    geometry (front ++ back) = geometry front ++ geometry back := List.filter_append _ _

theorem geometry_cons_of_isFillRule {s : PathSegment} (h : s.isFillRule) (back : List PathSegment) :
    geometry (s :: back) = geometry back := by
  simp [geometry, h]

theorem geometry_cons {s : PathSegment} (h : s.isFillRule = false) (back : List PathSegment) :
    geometry (s :: back) = s :: geometry back := by
  simp [geometry, h]

theorem geometry_eq_nil_iff {segments : List PathSegment} :
    geometry segments = [] ↔ ∀ s ∈ segments, s.isFillRule := by
  simp [geometry]

theorem geometry_eq_self_iff {segments : List PathSegment} :
    geometry segments = segments ↔ ∀ s ∈ segments, s.isFillRule = false := by
  simp [geometry]

end PathSegment

open PathSegment

namespace PathData

/-! ## Geometry of runs -/

variable {run : List PathSegment}

theorem Unbroken.continues_of_mem_tail (h : Unbroken run) {t : PathSegment} (ht : t ∈ run.tail) :
    ∃ s, continues s t = true := by
  induction run with
  | nil => cases ht
  | cons s run ih =>
    cases run with
    | nil => cases ht
    | cons u run =>
      obtain ⟨hfirst, hrest⟩ := List.isChain_cons_cons.1 h
      rcases List.mem_cons.1 ht with rfl | ht
      · exact ⟨s, hfirst⟩
      · exact ih hrest ht

/-- A fill rule is a run of its own. -/
theorem Unbroken.eq_singleton (h : Unbroken run) {rule : PathSegment} (hmem : rule ∈ run)
    (hrule : rule.isFillRule) : run = [rule] := by
  match run with
  | [s] => rw [List.mem_singleton.1 hmem]
  | s :: t :: run =>
    have hplain : rule.isFillRule = false := by
      rcases List.mem_cons.1 hmem with rfl | htail
      · exact (continues_eq_true_iff.1 (List.isChain_cons_cons.1 h).1).1
      · obtain ⟨u, hu⟩ := h.continues_of_mem_tail htail
        exact (continues_eq_true_iff.1 hu).2.1
    rw [hplain] at hrule
    cases hrule

/-- The geometry of a run is the whole run, or nothing of it. -/
theorem Unbroken.geometry_eq (h : Unbroken run) :
    geometry run = if run.any isFillRule then [] else run := by
  split
  · rename_i hany
    obtain ⟨rule, hmem, hrule⟩ := List.any_eq_true.1 hany
    rw [h.eq_singleton hmem hrule, geometry_cons_of_isFillRule hrule, geometry_nil]
  · rename_i hany
    refine geometry_eq_self_iff.2 fun s hs => ?_
    simpa using fun hrule => hany (List.any_eq_true.2 ⟨s, hs, hrule⟩)

theorem flatten_geometricRuns {runs : List (List PathSegment)} (h : ∀ run ∈ runs, Unbroken run) :
    (geometricRuns runs).flatten = geometry runs.flatten := by
  induction runs with
  | nil => rfl
  | cons run runs ih =>
    obtain ⟨hrun, hruns⟩ := List.forall_mem_cons.1 h
    rw [List.flatten_cons, geometry_append, hrun.geometry_eq, ← ih hruns]
    unfold geometricRuns
    rw [List.filter_cons]
    cases run.any isFillRule <;> rfl

theorem exists_of_geometricRuns {runs before after : List (List PathSegment)}
    (h : geometricRuns runs = before ++ run :: after) :
    ∃ front back, runs = front ++ run :: back ∧ geometricRuns front = before ∧
      geometricRuns back = after := by
  obtain ⟨front, rest, rfl, hfront, hrest⟩ := List.filter_eq_append_iff.1 h
  obtain ⟨skipped, back, rfl, hskipped, -, hback⟩ := List.filter_eq_cons_iff.1 hrest
  refine ⟨front ++ skipped, back, by rw [List.append_assoc], ?_, hback⟩
  rw [geometricRuns, List.filter_append, hfront, List.filter_eq_nil_iff.2 hskipped,
    List.append_nil]

/-! ## The runs of a path -/

variable {p : PathData}

theorem flatten_runs (segments : List PathSegment) : (runs segments).flatten = segments :=
  List.flatten_splitBy _ _

theorem unbroken_of_mem_runs {segments : List PathSegment} (h : run ∈ runs segments) :
    Unbroken run := List.isChain_of_mem_splitBy h

theorem mem_subpaths_iff :
    run ∈ p.subpaths ↔ run ∈ runs p.segments ∧ ∀ s ∈ run, s.isFillRule = false := by
  rw [subpaths_eq, geometricRuns, List.mem_filter]
  simp

theorem flatten_subpaths (p : PathData) : p.subpaths.flatten = geometry p.segments := by
  have hruns := flatten_geometricRuns fun run (h : run ∈ runs p.segments) => unbroken_of_mem_runs h
  rw [subpaths_eq, hruns, flatten_runs]

theorem ne_nil_of_mem_subpaths (h : run ∈ p.subpaths) : run ≠ [] :=
  List.ne_nil_of_mem_splitBy (mem_subpaths_iff.1 h).1

theorem isMove_of_mem_tail (h : run ∈ p.subpaths) {s : PathSegment} (hs : s ∈ run.tail) :
    s.isMove = false := by
  have hrun := unbroken_of_mem_runs (mem_subpaths_iff.1 h).1
  obtain ⟨t, ht⟩ := hrun.continues_of_mem_tail hs
  exact (continues_eq_true_iff.1 ht).2.2

/-- Where a run ends and the next one begins, there is a fill rule or a move. -/
theorem continues_eq_false_of_runs {before after : List (List PathSegment)}
    {init rest : List PathSegment} {s t : PathSegment}
    (h : runs p.segments = before ++ (init ++ [s]) :: (t :: rest) :: after) :
    continues s t = false := by
  have hchain := List.isChain_getLast_head_splitBy continues p.segments
  rw [← runs, h] at hchain
  obtain ⟨_, _, hbreak⟩ := (List.isChain_cons_cons.1 hchain.right_of_append).1
  rwa [List.getLast_concat, List.head_cons] at hbreak

/-- A subpath lies in the path behind the geometry of the subpaths before it. -/
theorem exists_segments_of_subpaths {before after : List (List PathSegment)}
    (h : p.subpaths = before ++ run :: after) :
    ∃ front back, p.segments = front ++ run ++ back ∧ geometry front = before.flatten := by
  rw [subpaths_eq] at h
  obtain ⟨front, back, hruns, hfront, -⟩ := exists_of_geometricRuns h
  refine ⟨front.flatten, back.flatten, ?_, ?_⟩
  · rw [← flatten_runs p.segments, hruns, List.flatten_append, List.flatten_cons, List.append_assoc]
  · rw [← hfront, flatten_geometricRuns]
    intro run hrun
    exact unbroken_of_mem_runs (hruns ▸ List.mem_append_left _ hrun)

/-- Between the runs of two neighbours there are only runs of fill rules. -/
theorem exists_runs_of_subpaths {before after : List (List PathSegment)}
    {next : List PathSegment} (h : p.subpaths = before ++ run :: next :: after) :
    ∃ front rules back, runs p.segments = front ++ run :: (rules ++ next :: back) ∧
      geometry front.flatten = before.flatten ∧ ∀ rule ∈ rules.flatten, rule.isFillRule := by
  rw [subpaths_eq] at h
  obtain ⟨front, rest, hruns, hfront, hrest⟩ := exists_of_geometricRuns h
  rw [← List.nil_append (next :: after)] at hrest
  obtain ⟨rules, back, rfl, hrules, -⟩ := exists_of_geometricRuns hrest
  have hunbroken {other : List PathSegment} (hother : other ∈ front ++ rules) : Unbroken other := by
    refine unbroken_of_mem_runs (show other ∈ runs p.segments from ?_)
    simp only [hruns, List.mem_append, List.mem_cons] at hother ⊢
    tauto
  refine ⟨front, rules, back, hruns, ?_, ?_⟩
  · rw [← hfront, flatten_geometricRuns]
    exact fun other hother => hunbroken (List.mem_append_left _ hother)
  · have hnone := flatten_geometricRuns fun other hother =>
      hunbroken (List.mem_append_right front hother)
    rw [hrules, List.flatten_nil] at hnone
    exact geometry_eq_nil_iff.1 hnone.symm

/-- Between two subpaths stand only fill rules, and without one the second subpath begins with a
move. -/
theorem exists_fillRules_of_subpaths {before after : List (List PathSegment)}
    {init rest : List PathSegment} {s t : PathSegment}
    (h : p.subpaths = before ++ (init ++ [s]) :: (t :: rest) :: after) :
    ∃ front rules back, p.segments = front ++ s :: rules ++ t :: back ∧
      geometry front = before.flatten ++ init ∧ (∀ rule ∈ rules, rule.isFillRule) ∧
      (t.isMove ∨ rules ≠ []) := by
  have hs := (mem_subpaths_iff.1 (show (init ++ [s]) ∈ p.subpaths by simp [h])).2
  have ht := (mem_subpaths_iff.1 (show (t :: rest) ∈ p.subpaths by simp [h])).2
  obtain ⟨front, rules, back, hruns, hfront, hrules⟩ := exists_runs_of_subpaths h
  have hinit : geometry init = init :=
    geometry_eq_self_iff.2 fun u hu => hs u (List.mem_append_left _ hu)
  refine ⟨front.flatten ++ init, rules.flatten, rest ++ back.flatten, ?_, ?_, hrules, ?_⟩
  · rw [← flatten_runs p.segments, hruns]
    simp
  · rw [geometry_append, hinit, hfront]
  · rcases rules with - | ⟨rule, rules⟩
    · have hbreak := continues_eq_false_of_runs hruns
      left
      simpa [continues, hs s (by simp), ht t (by simp)] using hbreak
    · have hmem : rule ∈ runs p.segments := by simp [hruns]
      have hrule : rule ≠ [] := List.ne_nil_of_mem_splitBy hmem
      right
      simp [hrule]

/-- How runs of geometry may divide the segments of a path. -/
structure Subdivides (segments : List PathSegment) (runs : List (List PathSegment)) : Prop where
  ne_nil : ∀ run ∈ runs, run ≠ []
  noFillRule : ∀ run ∈ runs, ∀ s ∈ run, s.isFillRule = false
  moveInFront : ∀ run ∈ runs, ∀ s ∈ run.tail, s.isMove = false
  flatten : runs.flatten = geometry segments
  /-- A run lies behind the geometry of the runs before it. -/
  slice {before after : List (List PathSegment)} {run : List PathSegment}
    (h : runs = before ++ run :: after) :
    ∃ front back, segments = front ++ run ++ back ∧ geometry front = before.flatten
  /-- The first segment of a run behind another one is a move, or a fill rule stands in front. -/
  apart {before after : List (List PathSegment)} {init rest : List PathSegment} {s t : PathSegment}
    (h : runs = before ++ (init ++ [s]) :: (t :: rest) :: after) :
    ∃ front rules back, segments = front ++ s :: rules ++ t :: back ∧
      geometry front = before.flatten ++ init ∧ (∀ rule ∈ rules, rule.isFillRule) ∧
      (t.isMove ∨ rules ≠ [])

/-- **Subpaths lose and repeat nothing.** They are the geometry of a path in its order, in runs with
a move at most in front. One ends only in front of a move or a fill rule. -/
theorem subdivides_subpaths (p : PathData) : Subdivides p.segments p.subpaths where
  ne_nil _ hrun := ne_nil_of_mem_subpaths hrun
  noFillRule _ hrun := (mem_subpaths_iff.1 hrun).2
  moveInFront _ hrun _ hs := isMove_of_mem_tail hrun hs
  flatten := flatten_subpaths p
  slice h := exists_segments_of_subpaths h
  apart h := exists_fillRules_of_subpaths h

/-! ## Moves in front -/

/-- A subpath that begins with a segment. -/
theorem exists_subpath_cons {s : PathSegment} (h : s.isFillRule = false)
    (back : List PathSegment) :
    ∃ rest after, subpaths ⟨s :: back⟩ = (s :: rest) :: after := by
  have hflatten := flatten_subpaths ⟨s :: back⟩
  rw [geometry_cons h] at hflatten
  cases hsubpaths : subpaths ⟨s :: back⟩ with
  | nil =>
    rw [hsubpaths] at hflatten
    cases hflatten
  | cons run after =>
    have hrun : run ≠ [] := ne_nil_of_mem_subpaths (hsubpaths ▸ List.mem_cons_self)
    obtain ⟨t, rest, rfl⟩ := List.exists_cons_of_ne_nil hrun
    rw [hsubpaths, List.flatten_cons, List.cons_append] at hflatten
    obtain rfl := (List.cons.inj hflatten).1
    exact ⟨rest, after, rfl⟩

/-- A fill rule separates subpaths. -/
theorem subpaths_append_fillRule (front : List PathSegment) {rule : PathSegment}
    (h : rule.isFillRule) (back : List PathSegment) :
    subpaths ⟨front ++ rule :: back⟩ = subpaths ⟨front⟩ ++ subpaths ⟨back⟩ := by
  rw [subpaths_eq, subpaths_eq, subpaths_eq]
  exact geometricRuns_append_fillRule h front back

/-- Each subpath begins with a move. The first one need not, if the geometry of the path begins with
something else. -/
def LedByMoves (p : PathData) : Prop :=
  ∀ before run after, p.subpaths = before ++ run :: after →
    (∃ s, run.head? = some s ∧ s.isMove) ∨
      before = [] ∧ ∃ s, (geometry p.segments).head? = some s ∧ s.isDrawing

theorem LedByMoves.geometry_eq_nil (h : LedByMoves p) {front back : List PathSegment}
    {rule s : PathSegment} (hp : p.segments = front ++ rule :: s :: back) (hrule : rule.isFillRule)
    (hs : s.isDrawing) : geometry front = [] := by
  obtain ⟨hplain, hmove⟩ : s.isFillRule = false ∧ s.isMove = false := by
    simpa [isDrawing] using hs
  obtain ⟨rest, after, hsubpaths⟩ := exists_subpath_cons hplain back
  have hall : p.subpaths = subpaths ⟨front⟩ ++ (s :: rest) :: after := by
    rw [← hsubpaths, ← subpaths_append_fillRule front hrule, ← hp]
  rcases h _ _ _ hall with ⟨t, ht, htMove⟩ | ⟨hfront, -⟩
  · cases ht
    rw [hmove] at htMove
    cases htMove
  · rw [← flatten_subpaths ⟨front⟩, hfront, List.flatten_nil]

/-- A subpath that does not begin with a move begins the geometry, or a fill rule stands in front. -/
theorem exists_fillRule_of_subpaths {before after : List (List PathSegment)}
    {rest : List PathSegment} {t : PathSegment} (h : p.subpaths = before ++ (t :: rest) :: after)
    (ht : t.isMove = false) (hbefore : before ≠ []) :
    ∃ front rule back, p.segments = front ++ rule :: t :: back ∧ rule.isFillRule ∧
      geometry front ≠ [] := by
  obtain ⟨earlier, run, rfl⟩ := List.eq_nil_or_concat' before |>.resolve_left hbefore
  have hrun : run ∈ p.subpaths := by simp [h]
  obtain ⟨init, s, rfl⟩ :=
    List.eq_nil_or_concat' run |>.resolve_left (ne_nil_of_mem_subpaths hrun)
  have hs : s.isFillRule = false := (mem_subpaths_iff.1 hrun).2 s (by simp)
  rw [List.append_assoc] at h
  obtain ⟨front, rules, back, hsegments, -, hrules, hmove⟩ := exists_fillRules_of_subpaths h
  have hne : rules ≠ [] := hmove.resolve_left (by simp [ht])
  obtain ⟨others, rule, rfl⟩ := List.eq_nil_or_concat' rules |>.resolve_left hne
  refine ⟨front ++ s :: others, rule, back, by simp [hsegments], hrules rule (by simp), ?_⟩
  simp [geometry_cons hs]

/-- **Fill rules in the middle keep subpaths from beginning with moves.** All subpaths of a path
begin with a move, the first one perhaps apart, exactly if no fill rule stands between geometry and
something drawn without a move. -/
theorem ledByMoves_parse_iff (text : String) :
    LedByMoves (parse text).value ↔
      ∀ front rule s back, (parse text).value.segments = front ++ rule :: s :: back →
        rule.isFillRule → s.isDrawing → geometry front = [] := by
  constructor
  · intro h front rule s back hsegments hrule hs
    exact h.geometry_eq_nil hsegments hrule hs
  · intro h before run after hsubpaths
    have hmem : run ∈ (parse text).value.subpaths := by simp [hsubpaths]
    obtain ⟨t, rest, rfl⟩ := List.exists_cons_of_ne_nil (ne_nil_of_mem_subpaths hmem)
    cases ht : t.isMove with
    | true => exact .inl ⟨t, rfl, ht⟩
    | false =>
      have hdrawing : t.isDrawing := by
        have hplain := (mem_subpaths_iff.1 hmem).2 t List.mem_cons_self
        simp [isDrawing, hplain, ht]
      have hfirst : before = [] := by
        by_contra hbefore
        obtain ⟨front, rule, back, hsegments, hrule, hgeometry⟩ :=
          exists_fillRule_of_subpaths hsubpaths ht hbefore
        exact hgeometry (h front rule t back hsegments hrule hdrawing)
      refine .inr ⟨hfirst, t, ?_, hdrawing⟩
      rw [← flatten_subpaths, hsubpaths, hfirst]
      rfl

/-- Behind a fill rule, a line begins a subpath that is not the first one. -/
theorem not_ledByMoves_parse : ¬ LedByMoves (parse "M 0,0 L 1,1 F 1 L 2,2").value := by
  intro h
  have hsubpaths : (parse "M 0,0 L 1,1 F 1 L 2,2").value.subpaths =
      [[.move ⟨0, 0⟩, .line ⟨1, 1⟩]] ++ [.line ⟨2, 2⟩] :: [] := by
    with_unfolding_all rfl
  rcases h _ _ _ hsubpaths with ⟨s, hs, hmove⟩ | ⟨hbefore, -⟩
  · cases hs
    cases hmove
  · cases hbefore

end PathData

end Xps
