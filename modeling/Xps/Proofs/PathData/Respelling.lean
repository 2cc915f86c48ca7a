import Xps.Proofs.PathData.Continuation

/-!
# Spellings of one path

A run of groups means the same as the command over and over: behind a group of a command its letter
may come once more in front of the next group. And a comma inside of a point may be left out. Tokens
that differ in one of these ways (`PathTokens.Respelled`) draw the same segments, whatever comes
before and behind (`PathReading.segments_of_respelled`).

What is read of the tokens in front of a letter does not depend on what follows it. So it is enough
to look at the command that is spelled differently, from any place on (`PathPlace.drawAll_front`).
-/

namespace Xps

/-! ## Spellings -/

/-- Tokens, and the same ones with a letter or a comma more. -/
inductive PathTokens.Respelled : List PathToken → List PathToken → Prop
  /-- The letter of a command comes again behind some of its groups, in front of a group that is
  complete or breaks off. -/
  | letter {letter : Char} {c : PathCommand} {groups : List (Operands c.layout)}
      {run rest : List PathToken} (front : List PathToken) :
    PathCommand.ofLetter? letter.toLower = some c → c.repeats → groups ≠ [] →
    Operands.SpellEach groups run → PathCommand.nextIsNumber rest →
      Respelled (front ++ .command letter :: (run ++ rest))
        (front ++ .command letter :: (run ++ .command letter :: rest))
  /-- A comma comes between the numbers of a point, behind some groups and some operands of its own
  group. -/
  | comma {letter : Char} {c : PathCommand} {groups : List (Operands c.layout)}
      {first last : List Operand} {operands : Operands first} {run part : List PathToken}
      (front : List PathToken) (x y : Float32) (rest : List PathToken) :
    PathCommand.ofLetter? letter.toLower = some c → Operands.SpellEach groups run →
    c.layout = first ++ .point :: last → Operands.Spells operands part →
      Respelled (front ++ .command letter :: (run ++ (part ++ .number x :: .number y :: rest)))
        (front ++ .command letter :: (run ++ (part ++ .number x :: .comma :: .number y :: rest)))

/-! ## Statements -/

namespace PathTokens

/-- The statements that tokens begin with. -/
def spelled (ts : List PathToken) : List PathStatement := (statementsOf none ts).1

/-- Statements do not depend on the fault behind the tokens. -/
theorem statementsOf_fst (fault : Option PathFault) (ts : List PathToken) :
    (statementsOf fault ts).1 = spelled ts := by
  unfold spelled
  fun_induction statementsOf fault ts with
  | case1 => rw [statementsOf]
  | case2 letter ts hnone => rw [statementsOf_unknown hnone]
  | case3 letter ts c hc groups rest hread later fault' hlater ih =>
    rw [statementsOf_command hc hread]
    rw [hlater] at ih
    exact congrArg (_ :: ·) ih
  | case4 letter ts c hc groups rest hread => rw [statementsOf_broken hc hread]
  | case5 t ts hcommand => rw [statementsOf_misplaced hcommand]

/-- The statements behind the operands of a command. There are none where a group breaks off. -/
def spelledBehind : Except (List PathToken) (List PathToken) → List PathStatement
  | .ok rest => spelled rest
  | .error _ => []

theorem spelled_command {letter : Char} {c : PathCommand}
    (hc : PathCommand.ofLetter? letter.toLower = some c) (ts : List PathToken) :
    spelled (.command letter :: ts) =
      ⟨c, letter.isLower, (c.readOperands ts).1⟩ :: spelledBehind (c.readOperands ts).2 := by
  unfold spelled
  rcases hread : c.readOperands ts with ⟨groups, rest | rest⟩
  · rw [statementsOf_broken hc hread]
    rfl
  · rw [statementsOf_command hc hread]
    rfl

theorem spelled_unknown {letter : Char} (h : PathCommand.ofLetter? letter.toLower = none)
    (ts : List PathToken) : spelled (.command letter :: ts) = [] := by
  unfold spelled
  rw [statementsOf_unknown h]

theorem spelled_misplaced {t : PathToken} (h : ∀ letter, t ≠ .command letter)
    (ts : List PathToken) : spelled (t :: ts) = [] := by
  unfold spelled
  rw [statementsOf_misplaced h]

end PathTokens

open PathTokens (spelled spelledBehind)

namespace PathPlace

theorem drawAll_cons (s : PathPlace) (c : PathCommand) (relative : Bool)
    (groups : List (Operands c.layout)) (later : List PathStatement) :
    s.drawAll (⟨c, relative, groups⟩ :: later) =
      (s.drawEach c relative groups).1 ++
        { (s.drawEach c relative groups).2 with previous := some c }.drawAll later := rfl

/-- Tokens that draw the same from a letter on draw the same with others in front of it. -/
theorem drawAll_front {letter : Char} {us vs : List PathToken}
    (h : ∀ s : PathPlace, s.drawAll (spelled (.command letter :: us)) =
      s.drawAll (spelled (.command letter :: vs)))
    (front : List PathToken) (s : PathPlace) :
    s.drawAll (spelled (front ++ .command letter :: us)) =
      s.drawAll (spelled (front ++ .command letter :: vs)) := by
  -- A command takes its groups along, so that the induction is on the number of tokens in front.
  induction hn : front.length using Nat.strongRecOn generalizing front s with
  | ind n ih =>
    match front with
    | [] => exact h s
    | t :: ts =>
      by_cases ht : ∃ l, t = .command l
      · obtain ⟨l, rfl⟩ := ht
        cases hc : PathCommand.ofLetter? l.toLower with
        | none =>
          rw [List.cons_append, List.cons_append, PathTokens.spelled_unknown hc,
            PathTokens.spelled_unknown hc]
        | some c =>
          have hread (more : List PathToken) :=
            PathCommand.readOperands_append (c := c) ts (.command letter :: more)
              (.inr ⟨letter, more, rfl⟩)
          rw [List.cons_append, List.cons_append, PathTokens.spelled_command hc,
            PathTokens.spelled_command hc, hread, hread, drawAll_cons, drawAll_cons]
          dsimp only
          congr 1
          cases hstop : (c.readOperands ts).2 with
          | error => rfl
          | ok rest =>
            have hless : rest.length ≤ ts.length :=
              PathCommand.length_le_of_readOperands (Prod.ext rfl hstop)
            exact ih rest.length (by rw [← hn, List.length_cons]; omega) rest _ rfl
      · have hmisplaced : ∀ l, t ≠ .command l := fun l hl => ht ⟨l, hl⟩
        rw [List.cons_append, List.cons_append, PathTokens.spelled_misplaced hmisplaced,
          PathTokens.spelled_misplaced hmisplaced]

/-! ## A letter more -/

/-- The places are at the same points, perhaps behind other commands. -/
structure SamePoints (s t : PathPlace) : Prop where
  current_eq : s.current = t.current
  start_eq : s.start = t.start
  control_eq : s.control = t.control

variable {s t : PathPlace} {c : PathCommand}

theorem SamePoints.withPrevious (h : SamePoints s t) (previous : Option PathCommand) :
    ({ s with previous } : PathPlace) = { t with previous } := by
  obtain ⟨hcurrent, hstart, hcontrol⟩ := h
  rw [hcurrent, hstart, hcontrol]

/-- Only smooth curves look back at the command before them. -/
theorem SamePoints.draw (h : SamePoints s t) (hc : c ≠ .smooth) (relative : Bool)
    (group : Operands c.layout) :
    (s.draw c relative group).1 = (t.draw c relative group).1 ∧
      SamePoints (s.draw c relative group).2 (t.draw c relative group).2 := by
  obtain ⟨hcurrent, hstart, hcontrol⟩ := h
  unfold PathPlace.draw
  rw [hcurrent]
  generalize (if relative then group.absolute t.current else group) = operands
  match c, operands with
  | .smooth, _ => exact absurd rfl hc
  | .horizontal, .number _ .nil | .vertical, .number _ .nil =>
    unfold trace
    dsimp only
    rw [hcurrent]
    exact ⟨rfl, rfl, hstart, hcontrol⟩
  | .close, .nil => exact ⟨rfl, hstart, hstart, hcontrol⟩
  | .move, .point _ .nil => exact ⟨rfl, rfl, rfl, hcontrol⟩
  | .cubic, .point _ (.point _ (.point _ .nil)) => exact ⟨rfl, rfl, hstart, rfl⟩
  | .line, .point _ .nil | .quad, .point _ (.point _ .nil) => exact ⟨rfl, rfl, hstart, hcontrol⟩
  | .fillRule, .number _ .nil | .arc, _ => exact ⟨rfl, hcurrent, hstart, hcontrol⟩

theorem SamePoints.drawEach (h : SamePoints s t) (hc : c ≠ .smooth) (relative : Bool)
    (groups : List (Operands c.layout)) :
    (s.drawEach c relative groups).1 = (t.drawEach c relative groups).1 ∧
      SamePoints (s.drawEach c relative groups).2 (t.drawEach c relative groups).2 := by
  induction groups generalizing s t with
  | nil => exact ⟨rfl, h⟩
  | cons group groups ih =>
    obtain ⟨hfirst, hplace⟩ := h.draw hc relative group
    obtain ⟨hlater, hend⟩ := ih hplace
    refine ⟨?_, hend⟩
    unfold PathPlace.drawEach
    dsimp only
    rw [hfirst, hlater]

/-- A smooth curve counts as the command before at once. -/
theorem previous_drawEach_smooth (s : PathPlace) (relative : Bool)
    {groups : List (Operands PathCommand.smooth.layout)} (hne : groups ≠ []) :
    (s.drawEach .smooth relative groups).2.previous = some .smooth := by
  have hdraw (s : PathPlace) (group : Operands PathCommand.smooth.layout) :
      (s.draw .smooth relative group).2.previous = some .smooth := by
    unfold PathPlace.draw
    match if relative then group.absolute s.current else group with
    | .point _ (.point _ .nil) => rfl
  have hafter (groups : List (Operands PathCommand.smooth.layout)) (s : PathPlace)
      (hs : s.previous = some .smooth) :
      (s.drawEach .smooth relative groups).2.previous = some .smooth := by
    induction groups generalizing s with
    | nil => exact hs
    | cons group groups ih => exact ih _ (hdraw s group)
  obtain ⟨group, groups, rfl⟩ := List.exists_cons_of_ne_nil hne
  exact hafter groups _ (hdraw s group)

theorem drawEach_append_snd (c : PathCommand) (relative : Bool) (s : PathPlace)
    (first last : List (Operands c.layout)) :
    (drawEach c relative s (first ++ last)).2 =
      (drawEach c relative (drawEach c relative s first).2 last).2 := by
  induction first generalizing s with
  | nil => rfl
  | cons group first ih => exact ih _

/-- Groups may be drawn as those of two commands of one kind. -/
theorem drawAll_split (s : PathPlace) (relative : Bool) {first : List (Operands c.layout)}
    (hne : first ≠ []) (last : List (Operands c.layout)) (later : List PathStatement) :
    s.drawAll (⟨c, relative, first ++ last⟩ :: later) =
      s.drawAll (⟨c, relative, first⟩ :: ⟨c, relative, last⟩ :: later) := by
  rw [drawAll_cons, drawAll_cons, drawAll_cons, drawEach_append, drawEach_append_snd,
    List.append_assoc]
  congr 1
  -- A smooth curve finds one of its own kind before it, whether or not the letter comes again.
  by_cases hc : c = .smooth
  · subst hc
    have hprevious := previous_drawEach_smooth s relative hne
    have hsame : ({ (s.drawEach .smooth relative first).2 with previous := some .smooth } :
        PathPlace) = (s.drawEach .smooth relative first).2 := by
      rw [← hprevious]
    rw [hsame]
  · have hsame : SamePoints (s.drawEach c relative first).2
        { (s.drawEach c relative first).2 with previous := some c } := ⟨rfl, rfl, rfl⟩
    obtain ⟨hsegments, hend⟩ := hsame.drawEach hc relative last
    rw [hsegments, hend.withPrevious]

end PathPlace

namespace PathCommand

open Operands (SpellEach)

theorem readGroups_append_of_spellEach {c : PathCommand} (hc : c.repeats) {run : List PathToken}
    {groups : List (Operands c.layout)} (h : SpellEach groups run) (rest : List PathToken) :
    c.readGroups hc (run ++ rest) =
      (groups ++ (c.readGroups hc rest).1, (c.readGroups hc rest).2) := by
  induction h with
  | nil => rfl
  | @cons group groups ts us hgroup _ ih =>
    obtain ⟨x, more, hts⟩ := hgroup.exists_number (layout_ne_nil hc)
    have hnumber : nextIsNumber (ts ++ (us ++ rest)) := by
      rw [hts]
      rfl
    rw [List.append_assoc, readGroups_cons hc (hgroup.read _) hnumber, ih, List.cons_append]

end PathCommand

namespace PathPlace

theorem drawAll_letter {letter : Char} {c : PathCommand}
    (hletter : PathCommand.ofLetter? letter.toLower = some c) (hc : c.repeats)
    {groups : List (Operands c.layout)} (hne : groups ≠ []) {run : List PathToken}
    (hrun : Operands.SpellEach groups run) (rest : List PathToken) (s : PathPlace) :
    s.drawAll (spelled (.command letter :: (run ++ rest))) =
      s.drawAll (spelled (.command letter :: (run ++ .command letter :: rest))) := by
  have hread : c.readOperands (run ++ rest) =
      (groups ++ (c.readOperands rest).1, (c.readOperands rest).2) := by
    unfold PathCommand.readOperands
    rw [dif_pos hc, dif_pos hc, PathCommand.readGroups_append_of_spellEach hc hrun]
  have hagain : c.readOperands (run ++ .command letter :: rest) =
      (groups, .ok (.command letter :: rest)) :=
    PathCommand.readOperands_of_spellEach (.inl hc) hrun rfl
  rw [PathTokens.spelled_command hletter, PathTokens.spelled_command hletter, hread, hagain]
  show _ = s.drawAll (⟨c, letter.isLower, groups⟩ :: spelled (.command letter :: rest))
  rw [PathTokens.spelled_command hletter, drawAll_split s _ hne]

end PathPlace

/-! ## A comma more -/

namespace Operands

/-- Where a point comes next, a comma inside of it makes no difference. -/
theorem read_comma {first : List Operand} {operands : Operands first} {part : List PathToken}
    (h : Spells operands part) (last : List Operand) (x y : Float32) (rest : List PathToken) :
    read (first ++ .point :: last) (part ++ .number x :: .number y :: rest) =
      read (first ++ .point :: last) (part ++ .number x :: .comma :: .number y :: rest) := by
  induction h with
  | nil => rfl
  | number z _ ih =>
    simp only [List.cons_append, read]
    rw [ih]
  | point z w _ ih | commaPoint z w _ ih =>
    simp only [List.cons_append, read, readPoint]
    rw [ih]

theorem Spells.nextIsNumber_append {layout : List Operand} {operands : Operands layout}
    {part : List PathToken} (h : Spells operands part) (x : Float32) (rest : List PathToken) :
    PathCommand.nextIsNumber (part ++ .number x :: rest) := by
  cases h <;> rfl

end Operands

namespace PathCommand

theorem repeats_of_layout {c : PathCommand} {first last : List Operand}
    (h : c.layout = first ++ .point :: last) : c.repeats := by
  have hpoint : Operand.point ∈ c.layout := by
    rw [h]
    exact List.mem_append_right _ List.mem_cons_self
  cases c
  case fillRule | close => simp at hpoint
  all_goals rfl

theorem readGroups_congr {c : PathCommand} (hc : c.repeats) {ts us : List PathToken}
    (hread : Operands.read c.layout ts = Operands.read c.layout us) (hts : nextIsNumber ts)
    (hus : nextIsNumber us) : c.readGroups hc ts = c.readGroups hc us := by
  cases hfound : Operands.read c.layout us with
  | ok found => rw [readGroups_cons hc (hread.trans hfound) hts, readGroups_cons hc hfound hus]
  | error stop =>
    rw [readGroups_of_broken hc (hread.trans hfound) hts, readGroups_of_broken hc hfound hus]

theorem readOperands_comma {c : PathCommand} {first last : List Operand}
    (hlayout : c.layout = first ++ .point :: last) {groups : List (Operands c.layout)}
    {run : List PathToken} (hrun : Operands.SpellEach groups run) {operands : Operands first}
    {part : List PathToken} (hpart : Operands.Spells operands part) (x y : Float32)
    (rest : List PathToken) :
    c.readOperands (run ++ (part ++ .number x :: .number y :: rest)) =
      c.readOperands (run ++ (part ++ .number x :: .comma :: .number y :: rest)) := by
  have hc : c.repeats := repeats_of_layout hlayout
  have hread := Operands.read_comma hpart last x y rest
  rw [← hlayout] at hread
  unfold readOperands
  rw [dif_pos hc, dif_pos hc, readGroups_append_of_spellEach hc hrun,
    readGroups_append_of_spellEach hc hrun,
    readGroups_congr hc hread (hpart.nextIsNumber_append x _) (hpart.nextIsNumber_append x _)]

end PathCommand

/-! ## The main statement -/

theorem PathTokens.Respelled.drawAll_eq {ts us : List PathToken} (h : Respelled ts us)
    (s : PathPlace) : s.drawAll (spelled ts) = s.drawAll (spelled us) := by
  cases h with
  | letter front hletter hc hne hrun hrest =>
    exact s.drawAll_front (fun s => s.drawAll_letter hletter hc hne hrun _) front
  | comma front x y rest hletter hrun hlayout hpart =>
    refine PathPlace.drawAll_front (fun s => ?_) front s
    rw [PathTokens.spelled_command hletter, PathTokens.spelled_command hletter,
      PathCommand.readOperands_comma hlayout hrun hpart]

namespace PathReading

/-- **Spellings of one path draw the same.** A reader in front of some tokens, and one in front of
the same tokens with a letter or a comma more, come to the same segments if they begin alike, each
with its own fault behind its tokens. So do the texts that have these tokens. -/
theorem segments_of_respelled {ts us : List PathToken} (h : PathTokens.Respelled ts us) :
    (∀ (r q : PathReader) (fault fault' : Option PathFault), r.cursor.Ahead ts fault →
      q.cursor.Ahead us fault' → r.place = q.place → r.segments = q.segments →
        (ending (commands r)).segments = (ending (commands q)).segments) ∧
    ∀ text other, (PathTokens.ofText text).list = ts → (PathTokens.ofText other).list = us →
      (PathData.parse text).value.segments = (PathData.parse other).value.segments := by
  have hreaders (r q : PathReader) (fault fault' : Option PathFault) (hr : r.cursor.Ahead ts fault)
      (hq : q.cursor.Ahead us fault') (hplace : r.place = q.place)
      (hsegments : r.segments = q.segments) :
      (ending (commands r)).segments = (ending (commands q)).segments := by
    rw [(finishes_commands hr).segments_eq, (finishes_commands hq).segments_eq,
      PathTokens.statementsOf_fst, PathTokens.statementsOf_fst, h.drawAll_eq, hplace, hsegments]
  refine ⟨hreaders, ?_⟩
  rintro text other rfl rfl
  rw [segments_parse, segments_parse]
  exact congrArg List.reverse (hreaders _ _ _ _ (PathCursor.ahead_ofText text)
    (PathCursor.ahead_ofText other) rfl rfl)

/-- A run of smooth curves whose last group breaks off at a fault of the lexer, the letter in front
of that group, and a comma in its point. The readers begin at another point. -/
theorem segments_of_respelled_smooth :
    let text := "S1 1 2 2 3 3 #"
    let again := "S1 1 2 2S3 3"
    let comma := "S1 1 2 2 3,3"
    let segments text := (PathData.parse text).value.segments
    let reader text : PathReader := { cursor := .ofText text, current := ⟨5, 6⟩ }
    PathTokens.Respelled (PathTokens.ofText text).list (PathTokens.ofText again).list ∧
      PathTokens.Respelled (PathTokens.ofText text).list (PathTokens.ofText comma).list ∧
      (segments text).length = 1 ∧ segments text = segments again ∧
      segments text = segments comma ∧
      (ending (commands (reader text))).segments =
        (ending (commands (reader again))).segments := by
  have hsmooth : PathCommand.ofLetter? 'S'.toLower = some .smooth := by decide
  have hrun : @Operands.SpellEach PathCommand.smooth.layout
      [.point ⟨1, 1⟩ (.point ⟨2, 2⟩ .nil)] [.number 1, .number 1, .number 2, .number 2] :=
    .cons (.point 1 1 (.point 2 2 .nil)) .nil
  have htext : (PathTokens.ofText "S1 1 2 2 3 3 #").list = [.command 'S', .number 1, .number 1,
      .number 2, .number 2, .number 3, .number 3] := by
    with_unfolding_all rfl
  have hagain : (PathTokens.ofText "S1 1 2 2S3 3").list = [.command 'S', .number 1, .number 1,
      .number 2, .number 2, .command 'S', .number 3, .number 3] := by
    with_unfolding_all rfl
  have hcomma : (PathTokens.ofText "S1 1 2 2 3,3").list = [.command 'S', .number 1, .number 1,
      .number 2, .number 2, .number 3, .comma, .number 3] := by
    with_unfolding_all rfl
  have hdrawn : (PathData.parse "S1 1 2 2 3 3 #").value.segments.length = 1 := by
    decide +kernel
  intro text again comma segments reader
  have hletter : PathTokens.Respelled (PathTokens.ofText text).list
      (PathTokens.ofText again).list := by
    rw [htext, hagain]
    exact .letter [] hsmooth rfl (List.cons_ne_nil _ _) hrun rfl
  have hpair : PathTokens.Respelled (PathTokens.ofText text).list
      (PathTokens.ofText comma).list := by
    rw [htext, hcomma]
    exact .comma [] 3 3 [] hsmooth hrun rfl .nil
  obtain ⟨hreaders, htexts⟩ := segments_of_respelled hletter
  exact ⟨hletter, hpair, hdrawn, htexts text again rfl rfl,
    (segments_of_respelled hpair).2 text comma rfl rfl,
    hreaders (reader text) (reader again) _ _ (PathCursor.ahead_ofText text)
      (PathCursor.ahead_ofText again) rfl rfl⟩

end PathReading

end Xps
