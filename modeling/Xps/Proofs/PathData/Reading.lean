import Xps.Proofs.PathData.Lookahead

/-!
# Reading path data is reading its tokens

The reader of path data and the grammar go through the same tokens step by step: a group of operands
(`ends_group`), the groups of a command (`ends_operands`) and the commands of a text
(`finishes_commands`). What is drawn in each step is what the grammar draws, and both stop at the
same token with the same fault.
-/

namespace Xps

/-! ## What is drawn -/

namespace Notice

/-- A detail that is reported about path data without breaking off. -/
def isPathDetail : Notice → Bool
  | invalidFillRule _ | arcsIgnored => true
  | _ => false

/-- The fault that a notice reports. -/
def pathFault? : Notice → Option PathFault
  | pathBroken _ fault => some fault
  | _ => none

theorem pathFault?_of_isPathDetail {n : Notice} (h : n.isPathDetail) : n.pathFault? = none := by
  cases n <;> first | rfl | cases h

end Notice

namespace PathReader

def place (r : PathReader) : PathPlace := ⟨r.current, r.start, r.control, r.previous⟩

/-- The reader has drawn some segments since then and has reported details at most. -/
structure Draws (r r' : PathReader) (segments : List PathSegment) : Prop where
  segments : r'.segments = segments.reverse ++ r.segments
  notices : ∃ details, r'.notices = details ++ r.notices ∧ ∀ n ∈ details, n.isPathDetail

theorem draws_of_eq {r r' : PathReader} {segments : List PathSegment}
    (h : r'.segments = segments.reverse ++ r.segments) (hnotices : r'.notices = r.notices) :
    r.Draws r' segments :=
  ⟨h, [], hnotices, fun _ h => nomatch h⟩

theorem Draws.refl (r : PathReader) : r.Draws r [] := draws_of_eq rfl rfl

theorem Draws.note {r r' : PathReader} {segments : List PathSegment} (h : r.Draws r' segments)
    {n : Notice} (hn : n.isPathDetail) :
    r.Draws { r' with notices := n :: r'.notices } segments := by
  obtain ⟨details, hdetails, hall⟩ := h.notices
  exact ⟨h.segments, n :: details, congrArg (n :: ·) hdetails, List.forall_mem_cons.2 ⟨hn, hall⟩⟩

theorem Draws.trans {r r' r'' : PathReader} {segments later : List PathSegment}
    (h : r.Draws r' segments) (h' : r'.Draws r'' later) : r.Draws r'' (segments ++ later) := by
  obtain ⟨details, hdetails, hall⟩ := h.notices
  obtain ⟨more, hmore, hall'⟩ := h'.notices
  refine ⟨?_, more ++ details, ?_, List.forall_mem_append.2 ⟨hall', hall⟩⟩
  · rw [h'.segments, h.segments, List.reverse_append, List.append_assoc]
  · rw [hmore, hdetails, List.append_assoc]

end PathReader

namespace PathReading

open PathReader PathCommand

/-- The outcomes of a step, and of a list reading whose groups are drawn. -/
inductive Ends (r : PathReader) (fault : Option PathFault) (drawn : List PathSegment × PathPlace) :
    EStateM.Result PathFault PathReader Unit → Except (List PathToken) (List PathToken) → Prop
  | ok {r' : PathReader} {rest : List PathToken} : r'.cursor.Ahead rest fault →
    r'.place = drawn.2 → r.Draws r' drawn.1 → Ends r fault drawn (.ok () r') (.ok rest)
  | error {r' : PathReader} {rest : List PathToken} : r.Draws r' drawn.1 →
    Ends r fault drawn (.error (PathTokens.stop fault rest) r') (.error rest)

/-! ## Groups -/

theorem point_eq (o : Point) : point (some o) = do return o + (← point none) := by
  simp [point]

/-- What a command does with its operands, in absolute points, once they are read. -/
def settle (r : PathReader) (relative : Bool) :
    (c : PathCommand) → Operands c.layout → PathReader → PathReader
  | .fillRule, .number x .nil => (·.setFillRule x)
  | .move, .point p .nil => (·.moveTo p)
  | .line, .point p .nil => (·.lineTo p)
  | .horizontal, .number x .nil =>
    (·.lineTo ⟨if relative then x + r.current.x else x, r.current.y⟩)
  | .vertical, .number y .nil =>
    (·.lineTo ⟨r.current.x, if relative then y + r.current.y else y⟩)
  | .cubic, .point c₁ (.point c₂ (.point p .nil)) => (·.cubicTo .cubic c₁ c₂ p)
  | .smooth, .point c₂ (.point p .nil) => (·.cubicTo .smooth r.smoothControl c₂ p)
  | .quad, .point c (.point p .nil) => (·.quadTo c p)
  | .arc, _ => id
  | .close, .nil => (·.closePath)

theorem group_eq {c : PathCommand} (hc : c ≠ .close) (relative : Bool) :
    group c relative = get >>= fun r => written c.layout >>= fun operands =>
      modify (settle r relative c (if relative then operands.absolute r.current else operands)) := by
  unfold group
  congr 1; funext r
  cases c
  case close => exact absurd rfl hc
  case arc =>
    have hnothing : (modify id : PathReading Unit) = Pure.pure () := rfl
    cases relative <;>
      simp [written, layout, settle, origin?, point_eq, hnothing]
  all_goals
    cases relative <;>
      simp [written, layout, origin?, point_eq, Operands.absolute] <;> rfl

theorem draws_setFillRule (r : PathReader) (x : Float32) :
    let rule := (PathPlace.fillRule? x).toList.map PathSegment.fillRule
    (r.setFillRule x).cursor = r.cursor ∧ (r.setFillRule x).place = r.place ∧
      r.Draws (r.setFillRule x) rule := by
  unfold PathPlace.fillRule? setFillRule
  split
  · exact ⟨rfl, rfl, draws_of_eq rfl rfl⟩
  · split
    · exact ⟨rfl, rfl, draws_of_eq rfl rfl⟩
    · exact ⟨rfl, rfl, (Draws.refl r).note rfl⟩

theorem draws_settle (r : PathReader) (cursor : PathCursor) (relative : Bool) (c : PathCommand)
    (operands : Operands c.layout) :
    let drawn := r.place.trace relative c operands
    let r' := settle r relative c operands { r with cursor }
    r'.cursor = cursor ∧ r'.place = drawn.2 ∧ r.Draws r' drawn.1 := by
  match c, operands with
  | .fillRule, .number x .nil =>
    obtain ⟨hcursor, hplace, hdraws⟩ := draws_setFillRule { r with cursor } x
    exact ⟨hcursor, hplace, hdraws.segments, hdraws.notices⟩
  | .move, .point _ .nil | .line, .point _ .nil | .horizontal, .number _ .nil
  | .vertical, .number _ .nil | .cubic, .point _ (.point _ (.point _ .nil))
  | .smooth, .point _ (.point _ .nil) | .quad, .point _ (.point _ .nil) | .arc, _
  | .close, .nil => exact ⟨rfl, rfl, draws_of_eq rfl rfl⟩

variable {r : PathReader} {ts rest : List PathToken} {fault : Option PathFault}

theorem group_apply {c : PathCommand} (hc : c ≠ .close) (relative : Bool) (r : PathReader) :
    group c relative r = match written c.layout r with
      | .ok operands r' =>
        .ok () (settle r relative c (if relative then operands.absolute r.current else operands) r')
      | .error fault r' => .error fault r' := by
  rw [group_eq hc]
  show EStateM.bind (written c.layout) _ r = _
  unfold EStateM.bind
  cases written c.layout r <;> rfl

theorem ends_group {c : PathCommand} (hc : c ≠ .close) (relative : Bool)
    (h : r.cursor.Ahead ts fault) {operands : Operands c.layout}
    (hread : Operands.read c.layout ts = .ok (operands, rest)) :
    Ends r fault (r.place.draw c relative operands) (group c relative r) (.ok rest) := by
  have hmoves := moves_written c.layout r ts fault h
  rw [group_apply hc]
  rw [hread] at hmoves
  generalize written c.layout r = result at hmoves ⊢
  cases hmoves with
  | ok _ hahead =>
    obtain ⟨hcursor, hplace, hdraws⟩ := draws_settle r _ relative c
      (if relative then operands.absolute r.current else operands)
    exact .ok (hcursor ▸ hahead) hplace hdraws

theorem ends_group_broken {c : PathCommand} (hc : c ≠ .close) (relative : Bool)
    (h : r.cursor.Ahead ts fault) (hread : Operands.read c.layout ts = .error rest)
    (place : PathPlace) : Ends r fault ([], place) (group c relative r) (.error rest) := by
  have hmoves := moves_written c.layout r ts fault h
  rw [group_apply hc]
  rw [hread] at hmoves
  generalize written c.layout r = result at hmoves ⊢
  cases hmoves with
  | error => exact .error (draws_of_eq rfl rfl)

/-! ## Commands -/

theorem ne_close_of_repeats {c : PathCommand} (hc : c.repeats) : c ≠ .close := by
  rintro rfl
  cases hc

theorem groups_apply (c : PathCommand) (relative : Bool) (r : PathReader) :
    groups c relative r =
      if r.cursor.token.isNumber then
        match group c relative r with
        | .ok _ r' => groups c relative r'
        | .error fault r' => .error fault r'
      else .ok () r := by
  rw [groups]
  split
  · split <;> rename_i heq <;> rw [heq]
  · rfl

theorem ends_groups {c : PathCommand} (hc : c.repeats) (relative : Bool)
    (h : r.cursor.Ahead ts fault) :
    Ends r fault (r.place.drawEach c relative (c.readGroups hc ts).1) (groups c relative r)
      (c.readGroups hc ts).2 := by
  fun_induction readGroups c hc ts generalizing r with
  | case1 ts hnumber operands rest hread later stop hlater ih =>
    have hgroup := ends_group (ne_close_of_repeats hc) relative h hread
    rw [groups_apply, h.isNumber_eq, if_pos hnumber]
    generalize group c relative r = result at hgroup ⊢
    cases hgroup with
    | @ok r' _ hahead hplace hdraws =>
      have hgroups := ih hahead
      rw [hlater, hplace] at hgroups
      dsimp only at hgroups ⊢
      generalize groups c relative r' = result at hgroups ⊢
      cases hgroups with
      | ok hahead hplace hmore => exact .ok hahead hplace (hdraws.trans hmore)
      | error hmore => exact .error (hdraws.trans hmore)
  | case2 ts hnumber stop hread =>
    have hgroup := ends_group_broken (ne_close_of_repeats hc) relative h hread r.place
    rw [groups_apply, h.isNumber_eq, if_pos hnumber]
    generalize group c relative r = result at hgroup ⊢
    cases hgroup with
    | error hdraws => exact .error hdraws
  | case3 ts hnumber =>
    rw [groups_apply, h.isNumber_eq, if_neg hnumber]
    exact .ok h rfl (.refl r)

theorem drawEach_singleton (c : PathCommand) (relative : Bool) (s : PathPlace)
    (group : Operands c.layout) : s.drawEach c relative [group] = s.draw c relative group := by
  show ((s.draw c relative group).1 ++ [], (s.draw c relative group).2) = _
  rw [List.append_nil]

theorem ends_operands (c : PathCommand) (relative : Bool) (h : r.cursor.Ahead ts fault) :
    Ends r fault (r.place.drawEach c relative (c.readOperands ts).1) (operands c relative r)
      (c.readOperands ts).2 := by
  have hgroups (hc : c.repeats) : Ends r fault (r.place.drawEach c relative (c.readOperands ts).1)
      (groups c relative r) (c.readOperands ts).2 := by
    rw [readOperands, dif_pos hc]
    exact ends_groups hc relative h
  cases c
  case fillRule =>
    have hc : PathCommand.fillRule ≠ .close := fun h => nomatch h
    rw [readOperands, dif_neg (show ¬ PathCommand.fillRule.repeats from Bool.false_ne_true)]
    split
    · rename_i hread
      rw [drawEach_singleton]
      exact ends_group hc relative h hread
    · rename_i hread
      exact ends_group_broken hc relative h hread _
  case close =>
    have hread : PathCommand.close.readOperands ts = ([.nil], .ok ts) := by
      rw [readOperands, dif_neg (show ¬ PathCommand.close.repeats from Bool.false_ne_true)]
      rfl
    rw [hread]
    dsimp only
    rw [drawEach_singleton]
    cases relative <;> exact .ok h rfl (draws_of_eq rfl rfl)
  case arc =>
    have hgroups := hgroups rfl
    show Ends _ _ _ (EStateM.bind (groups .arc relative) _ r) _
    unfold EStateM.bind
    generalize groups .arc relative r = result at hgroups ⊢
    generalize (PathCommand.arc.readOperands ts).2 = stop at hgroups ⊢
    cases hgroups with
    | ok hahead hplace hdraws => exact .ok hahead hplace (hdraws.note rfl)
    | error hdraws => exact .error hdraws
  all_goals exact hgroups rfl

/-- What a command with a known letter does. -/
theorem command_apply {letter : Char} {c : PathCommand}
    (hc : PathCommand.ofLetter? letter.toLower = some c) (r : PathReader) :
    command letter r = match operands c letter.isLower r with
      | .ok _ r' => .ok () { r' with previous := some c }
      | .error fault r' => .error fault r' := by
  unfold command
  rw [hc]
  show EStateM.bind (operands c letter.isLower) _ r = _
  unfold EStateM.bind
  cases operands c letter.isLower r <;> rfl

/-! ## The whole text -/

theorem commands_apply (r : PathReader) :
    commands r = match r.cursor.token with
      | .command letter =>
        match command letter r.advance with
        | .ok _ r' => commands r'
        | .error fault r' => .error fault r'
      | .endOfInput =>
        match r.cursor.fault with
        | some fault => .error fault r
        | none => .ok () r
      | _ => .error r.cursor.unexpected r := by
  rw [commands]
  split
  · rename_i heq
    rw [heq]
    dsimp only
    split <;> rename_i heq <;> rw [heq]
  · rename_i heq
    cases r.cursor.fault <;> simp only [heq]
  · rename_i hcommand hend
    split
    · rename_i heq
      exact absurd heq (hcommand _)
    · rename_i heq
      exact absurd heq hend
    · rfl

/-- The outcome of reading a text whose statements are drawn. -/
inductive Finishes (r : PathReader) (segments : List PathSegment) :
    EStateM.Result PathFault PathReader Unit → Option PathFault → Prop
  | ok {r' : PathReader} : r.Draws r' segments → Finishes r segments (.ok () r') none
  | error {r' : PathReader} (fault : PathFault) : r.Draws r' segments →
    Finishes r segments (.error fault r') (some fault)

/-- Where reading has come to, whether it goes on or breaks off. -/
def ending : EStateM.Result PathFault PathReader Unit → PathReader
  | .ok _ r | .error _ r => r

theorem Finishes.segments_eq {segments : List PathSegment}
    {result : EStateM.Result PathFault PathReader Unit} (h : Finishes r segments result fault) :
    (ending result).segments = segments.reverse ++ r.segments := by
  cases h with
  | ok hdraws | error _ hdraws => exact hdraws.segments

theorem finishes_commands (h : r.cursor.Ahead ts fault) :
    Finishes r (r.place.drawAll (PathTokens.statementsOf fault ts).1) (commands r)
      (PathTokens.statementsOf fault ts).2 := by
  fun_induction PathTokens.statementsOf fault ts generalizing r with
  | case1 =>
    obtain ⟨htoken, hfault⟩ := h.token_nil
    rw [commands_apply, htoken, hfault]
    cases fault with
    | none => exact .ok (.refl r)
    | some fault => exact .error fault (.refl r)
  | case2 letter ts hnone =>
    rw [commands_apply, h.token_eq]
    have hcommand : command letter r.advance = .error (.unknownCommand letter.toLower) r.advance := by
      unfold command
      rw [hnone]
      rfl
    dsimp only
    rw [hcommand]
    exact .error _ (draws_of_eq rfl rfl)
  | case3 letter ts c hc groups rest hread later fault' hlater ih =>
    have hoperands := ends_operands (r := r.advance) c letter.isLower h.advance
    rw [hread] at hoperands
    rw [commands_apply, h.token_eq]
    dsimp only at hoperands ⊢
    rw [command_apply hc]
    generalize operands c letter.isLower r.advance = result at hoperands ⊢
    cases hoperands with
    | @ok r' _ hahead hplace hdraws =>
      have hmore := ih (r := { r' with previous := some c }) hahead
      have hplace : ({ r' with previous := some c } : PathReader).place =
          { (r.place.drawEach c letter.isLower groups).2 with previous := some c } :=
        congrArg (fun s : PathPlace => { s with previous := some c }) hplace
      rw [hlater, hplace] at hmore
      dsimp only at hmore ⊢
      generalize commands { r' with previous := some c } = result at hmore ⊢
      have hfirst : r.Draws { r' with previous := some c }
          (r.place.drawEach c letter.isLower groups).1 := ⟨hdraws.segments, hdraws.notices⟩
      cases hmore with
      | ok hrest => exact .ok (hfirst.trans hrest)
      | error fault hrest => exact .error fault (hfirst.trans hrest)
  | case4 letter ts c hc groups rest hread =>
    have hoperands := ends_operands (r := r.advance) c letter.isLower h.advance
    rw [hread] at hoperands
    rw [commands_apply, h.token_eq]
    dsimp only at hoperands ⊢
    rw [command_apply hc]
    generalize operands c letter.isLower r.advance = result at hoperands ⊢
    cases hoperands with
    | error hdraws =>
      refine .error _ ⟨?_, hdraws.notices⟩
      show _ = ((r.place.drawEach c letter.isLower groups).1 ++ []).reverse ++ r.segments
      rw [List.append_nil]
      exact hdraws.segments
  | case5 t ts hcommand =>
    have hend : r.cursor.token.isEnd = false := by
      cases h
      assumption
    have htoken := h.token_eq
    rw [commands_apply]
    split
    · rename_i letter heq
      exact absurd (htoken.symm.trans heq) (hcommand letter)
    · rename_i heq
      rw [heq] at hend
      cases hend
    · rw [h.unexpected_eq]
      exact .error _ (.refl r)

end PathReading

/-! ## Path data -/

theorem PathReading.segments_parse (text : String) :
    (PathData.parse text).value.segments =
      (ending (commands { cursor := .ofText text })).segments.reverse := by
  unfold PathData.parse
  cases commands { cursor := .ofText text } <;> rfl

namespace PathData

/-- The faults that reading path data reports. -/
def faults (text : String) : List PathFault := (parse text).notices.filterMap Notice.pathFault?

/-- The segments are drawn from the statements, and behind the details the fault is reported. -/
theorem parse_eq_statements (text : String) :
    let (found, fault) := (PathTokens.ofText text).statements
    (parse text).value.segments = PathPlace.drawAll {} found ∧
      ∃ details, (∀ n ∈ details, n.isPathDetail) ∧
        (parse text).entries = (details ++ fault.toList.map (.pathBroken text)).map .notice := by
  have hread : PathReading.Finishes _ (PathPlace.drawAll {} (PathTokens.ofText text).statements.1) _
      (PathTokens.ofText text).statements.2 :=
    PathReading.finishes_commands (r := { cursor := .ofText text }) (PathCursor.ahead_ofText text)
  have hreversed {r : PathReader} {segments : List PathSegment}
      (h : PathReader.Draws { cursor := .ofText text } r segments) :
      r.segments.reverse = segments ∧ ∀ n ∈ r.notices.reverse, n.isPathDetail := by
    obtain ⟨details, hdetails, hall⟩ := h.notices
    rw [h.segments, hdetails]
    simpa using hall
  unfold parse
  generalize (PathTokens.ofText text).statements = found at hread ⊢
  generalize PathReading.commands { cursor := .ofText text } = result at hread ⊢
  obtain ⟨found, fault⟩ := found
  cases hread with
  | ok h => exact ⟨(hreversed h).1, _, (hreversed h).2, rfl⟩
  | error fault h => exact ⟨(hreversed h).1, _, (hreversed h).2, rfl⟩

theorem faults_eq (text : String) : faults text = (PathTokens.ofText text).statements.2.toList := by
  obtain ⟨-, details, hdetails, hentries⟩ := parse_eq_statements text
  have hnone : details.filterMap Notice.pathFault? = [] :=
    List.filterMap_eq_nil_iff.2 fun n hn => Notice.pathFault?_of_isPathDetail (hdetails n hn)
  have hnotices (notices : List Notice) :
      (notices.map Entry.notice).filterMap Entry.notice? = notices := by
    rw [List.filterMap_map]
    exact List.filterMap_some
  unfold faults Journaled.notices
  rw [hentries, hnotices, List.filterMap_append, hnone, List.nil_append, List.filterMap_map]
  exact List.filterMap_some

/-- **Path data is read by its grammar.** The segments are those that the statements of the
tokenized text draw. One fault is reported if the tokens do not spell statements up to the end of
the text, and none if they do. -/
theorem parse_eq_grammar (text : String) :
    let tokens := PathTokens.ofText text
    (parse text).value.segments = PathPlace.drawAll {} tokens.statements.1 ∧
      faults text = tokens.statements.2.toList ∧
      (faults text = [] ↔
        tokens.fault = none ∧ ∃ found, PathStatement.Spell found tokens.list) := by
  intro tokens
  refine ⟨(parse_eq_statements text).1, faults_eq text, ?_⟩
  rw [faults_eq, Option.toList_eq_nil_iff]
  constructor
  · intro h
    obtain ⟨hfault, hspell⟩ := PathTokens.statements_eq_iff.1 (Prod.ext rfl h)
    exact ⟨hfault, _, hspell⟩
  · rintro ⟨hfault, found, hspell⟩
    rw [PathTokens.statements_eq_iff.2 ⟨hfault, hspell⟩]

end PathData

end Xps
