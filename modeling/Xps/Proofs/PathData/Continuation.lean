import Xps.Proofs.PathData.Reading

/-!
# Path data that goes on

Path data is read online. What was read of a text stays when a space and more text come behind it,
whether the text is complete, breaks off in the middle of a group, or has a fault. If it has a
fault, nothing is added either (`PathData.segments_append_space`).

The tokens of the longer text are those of the shorter one and then others, unless a fault ends them
(`PathTokens.Continues`). More tokens change nothing about a group that was complete, nor about a
place where reading stopped in front of a token. So the last statement may get more groups and
others may follow it, but only where reading came to the end of the tokens.
-/

namespace Xps

/-! ## Tokens -/

/-- The tokens of a text, and those of a text that goes on behind it. -/
inductive PathTokens.Continues : PathTokens → PathTokens → Prop
  | broken (list : List PathToken) (fault : PathFault) :
    Continues ⟨list, some fault⟩ ⟨list, some fault⟩
  | more (list later : List PathToken) (fault : Option PathFault) :
    Continues ⟨list, none⟩ ⟨list ++ later, fault⟩

theorem PathTokens.Continues.cons {first whole : PathTokens} (h : first.Continues whole)
    (t : PathToken) :
    Continues { first with list := t :: first.list } { whole with list := t :: whole.list } := by
  cases h with
  | broken list fault => exact .broken (t :: list) fault
  | more list later fault => exact .more (t :: list) later fault

namespace PathLexer

/-- The lexer of a text that goes on. -/
def extend (l : PathLexer) (more : List Char) : PathLexer := { l with rest := l.rest ++ more }

variable {more : List Char}

/-- A number ends in front of a space, whether or not that is the end of the text. -/
theorem span_append_space {space : Char} (hspace : isSpace space) (cs later : List Char) :
    (cs ++ space :: later).takeWhile continuesNumber = cs.takeWhile continuesNumber ∧
      (cs ++ space :: later).dropWhile continuesNumber =
        cs.dropWhile continuesNumber ++ space :: later := by
  have hstop : ¬ continuesNumber space = true := by
    simp [continuesNumber, hspace]
  rw [List.takeWhile_append, List.dropWhile_append, List.takeWhile_cons_of_neg hstop,
    List.dropWhile_cons_of_neg hstop]
  constructor
  · split
    · rename_i hlength
      rw [List.append_nil, (List.takeWhile_prefix continuesNumber).eq_of_length hlength]
    · rfl
  · split
    · rename_i hempty
      rw [List.isEmpty_iff.1 hempty, List.nil_append]
    · rfl

/-- So no token depends on what comes behind a space. -/
theorem token_append_space {space : Char} (hspace : isSpace space) (later : List Char)
    (position : Nat) (c : Char) (cs : List Char) :
    token position (c :: cs ++ space :: later) =
      (token position (c :: cs)).map fun (t, l) => (t, l.extend (space :: later)) := by
  obtain ⟨htake, hdrop⟩ := span_append_space hspace cs later
  rw [List.cons_append]
  unfold token
  dsimp only
  rw [htake, hdrop]
  split
  · cases Decimal.readFinite? (c :: cs.takeWhile continuesNumber) <;> rfl
  · split
    · rfl
    · split <;> rfl

theorem skip_extend {l : PathLexer} (h : l.skip.rest ≠ []) (more : List Char) :
    (l.extend more).skip = l.skip.extend more := by
  have hdrop : l.rest.dropWhile isSpace ≠ [] := h
  have htake : (l.rest.takeWhile isSpace).length ≠ l.rest.length := by
    intro hlength
    have hsplit :=
      congrArg List.length (List.takeWhile_append_dropWhile (p := isSpace) (l := l.rest))
    rw [List.length_append, hlength] at hsplit
    exact hdrop (List.length_eq_zero_iff.1 (by omega))
  unfold skip extend
  dsimp only
  rw [List.takeWhile_append, List.dropWhile_append, if_neg htake,
    if_neg (by rwa [List.isEmpty_iff])]

/-- The next token of a text is the next token of the text that goes on. -/
theorem next_extend {space : Char} (hspace : isSpace space) (later : List Char) {l : PathLexer}
    (h : l.skip.rest ≠ []) :
    (l.extend (space :: later)).next =
      l.next.map fun (t, l) => (t, l.extend (space :: later)) := by
  obtain ⟨c, cs, hrest⟩ := List.exists_cons_of_ne_nil h
  unfold next
  rw [skip_extend h]
  dsimp only [extend]
  rw [hrest]
  exact token_append_space hspace later _ c cs

theorem next_of_skip_eq_nil {l : PathLexer} (h : l.skip.rest = []) :
    l.next = .ok (.endOfInput, ⟨[], l.skip.position⟩) := by
  unfold next
  dsimp only
  rw [h]
  rfl

theorem tokens_eq (l : PathLexer) :
    l.tokens = match l.next with
      | .error fault => ⟨[], some fault⟩
      | .ok (t, l') =>
        if t.isEnd then ⟨[], none⟩ else { l'.tokens with list := t :: l'.tokens.list } := by
  rw [tokens]
  split
  · rename_i heq
    rw [heq]
  · rename_i heq
    rw [heq]
    dsimp only
    split <;> rfl

theorem tokens_extend {space : Char} (hspace : isSpace space) (later : List Char)
    (l : PathLexer) : l.tokens.Continues (l.extend (space :: later)).tokens := by
  fun_induction tokens l with
  | case1 l fault hnext =>
    have hskip : l.skip.rest ≠ [] := by
      intro h
      cases hnext.symm.trans (next_of_skip_eq_nil h)
    rw [tokens_eq (l.extend _), next_extend hspace later hskip, hnext]
    exact .broken [] fault
  | case2 => exact .more [] _ _
  | case3 l t l' hnext hend tokens ih =>
    have hskip : l.skip.rest ≠ [] := by
      intro h
      cases hnext.symm.trans (next_of_skip_eq_nil h)
      exact hend rfl
    rw [tokens_eq (l.extend _), next_extend hspace later hskip, hnext]
    dsimp only [Except.map]
    rw [if_neg hend]
    exact ih.cons t

end PathLexer

theorem PathTokens.continues_ofText (text : String) {spaces : String} (hne : spaces ≠ "")
    (hspaces : ∀ c ∈ spaces.toList, PathLexer.isSpace c) (later : String) :
    (ofText text).Continues (ofText (text ++ spaces ++ later)) := by
  have hlist : spaces.toList ≠ [] := by
    intro h
    exact hne (String.toList_inj.1 h)
  obtain ⟨space, others, hspace⟩ := List.exists_cons_of_ne_nil hlist
  have hmem : space ∈ spaces.toList := by
    rw [hspace]
    exact List.mem_cons_self
  have hisSpace : PathLexer.isSpace space := hspaces space hmem
  have hwhole : (text ++ spaces ++ later).toList =
      text.toList ++ space :: (others ++ later.toList) := by
    rw [String.toList_append, String.toList_append, hspace, List.append_assoc, List.cons_append]
  unfold ofText
  rw [hwhole]
  exact PathLexer.tokens_extend hisSpace (others ++ later.toList) ⟨text.toList, 0⟩

/-! ## Groups -/

namespace Operands

/-- Tokens behind a place where reading stopped do not change that: it stopped in front of a token,
or a letter comes next. -/
def StaysStopped (rest us : List PathToken) : Prop :=
  rest ≠ [] ∨ ∃ letter later, us = .command letter :: later

theorem readPoint_append_of_stopped {ts rest us : List PathToken}
    (h : readPoint ts = .error rest) (hstop : StaysStopped rest us) :
    readPoint (ts ++ us) = .error (rest ++ us) := by
  rcases ts with _ | ⟨_ | _ | _ | _, _ | ⟨_ | _ | _ | _, _ | ⟨_ | _ | _ | _, ts⟩⟩⟩ <;> cases h
  all_goals
    rcases hstop with hne | ⟨letter, later, rfl⟩
    · first | rfl | exact absurd rfl hne
    · rfl

/-- A group that is complete stays as it is. -/
theorem read_append {layout : List Operand} {ts rest : List PathToken} {group : Operands layout}
    (h : read layout ts = .ok (group, rest)) (us : List PathToken) :
    read layout (ts ++ us) = .ok (group, rest ++ us) := by
  obtain ⟨used, hspells, rfl⟩ := spells_of_read h
  rw [List.append_assoc]
  exact hspells.read (rest ++ us)

/-- A group that breaks off in front of a token breaks off there. -/
theorem read_append_of_stopped {layout : List Operand} {ts rest us : List PathToken}
    (h : read layout ts = .error rest) (hstop : StaysStopped rest us) :
    read layout (ts ++ us) = .error (rest ++ us) := by
  fun_induction read layout ts with
  | case1 | case2 | case5 => cases h
  | case3 layout x ts stop hread ih =>
    cases h
    rw [List.cons_append, read, ih hread]
  | case4 layout ts hnumber =>
    cases h
    cases rest with
    | cons t rest =>
      rw [List.cons_append, read]
      exact fun x ts heq => hnumber x _ (congrArg (· :: _) (List.cons.inj heq).1)
    | nil =>
      rcases hstop with hne | ⟨letter, later, rfl⟩
      · exact absurd rfl hne
      · rfl
  | case6 layout ts p ts' hpoint stop hread ih =>
    cases h
    have hmore : readPoint (ts ++ us) = .ok (p, ts' ++ us) := by
      rcases readPoint_eq_ok_iff.1 hpoint with rfl | rfl <;> rfl
    rw [read, hmore]
    dsimp only
    rw [ih hread]
  | case7 layout ts stop hpoint =>
    cases h
    rw [read, readPoint_append_of_stopped hpoint hstop]

end Operands

namespace PathCommand

open Operands (StaysStopped)

/-- What is left where reading stopped, behind groups or inside of one. -/
def leftOver : Except (List PathToken) (List PathToken) → List PathToken
  | .ok rest | .error rest => rest

/-- The same place with more tokens behind it. -/
def stopBefore (us : List PathToken) :
    Except (List PathToken) (List PathToken) → Except (List PathToken) (List PathToken)
  | .ok rest => .ok (rest ++ us)
  | .error rest => .error (rest ++ us)

theorem nextIsNumber_append {ts : List PathToken} (h : ts ≠ []) (us : List PathToken) :
    nextIsNumber (ts ++ us) = nextIsNumber ts := by
  obtain ⟨t, ts, rfl⟩ := List.exists_cons_of_ne_nil h
  rfl

theorem ne_nil_of_nextIsNumber {ts : List PathToken} (h : nextIsNumber ts) : ts ≠ [] := by
  rintro rfl
  cases h

theorem readGroups_of_broken {c : PathCommand} (hc : c.repeats) {ts stop : List PathToken}
    (hread : Operands.read c.layout ts = .error stop) (hnumber : nextIsNumber ts) :
    c.readGroups hc ts = ([], .error stop) := by
  rw [readGroups, if_pos hnumber]
  split <;> rename_i heq <;> cases hread.symm.trans heq
  rfl

/-- The groups that were read come first with more tokens, too. -/
theorem readGroups_prefix {c : PathCommand} (hc : c.repeats) (ts us : List PathToken) :
    (c.readGroups hc ts).1 <+: (c.readGroups hc (ts ++ us)).1 := by
  fun_induction readGroups c hc ts with
  | case1 ts hnumber group rest hread later stop hlater ih =>
    have hmore : nextIsNumber (ts ++ us) := by
      rwa [nextIsNumber_append (ne_nil_of_nextIsNumber hnumber)]
    rw [readGroups_cons hc (Operands.read_append hread us) hmore]
    rw [hlater] at ih
    exact (List.prefix_cons_inj group).2 ih
  | case2 | case3 => exact List.nil_prefix

theorem readGroups_of_noNumber {c : PathCommand} (hc : c.repeats) {ts : List PathToken}
    (hnumber : nextIsNumber ts = false) : c.readGroups hc ts = ([], .ok ts) := by
  rw [readGroups, hnumber]
  rfl

/-- Where reading stopped in front of a token, it stops with more tokens, too. -/
theorem readGroups_append {c : PathCommand} (hc : c.repeats) {ts us : List PathToken}
    (h : StaysStopped (leftOver (c.readGroups hc ts).2) us) :
    c.readGroups hc (ts ++ us) =
      ((c.readGroups hc ts).1, stopBefore us (c.readGroups hc ts).2) := by
  fun_induction readGroups c hc ts with
  | case1 ts hnumber group rest hread later stop hlater ih =>
    have hmore : nextIsNumber (ts ++ us) := by
      rwa [nextIsNumber_append (ne_nil_of_nextIsNumber hnumber)]
    rw [hlater] at ih
    rw [readGroups_cons hc (Operands.read_append hread us) hmore, ih h]
  | case2 ts hnumber stop hread =>
    have hmore : nextIsNumber (ts ++ us) := by
      rwa [nextIsNumber_append (ne_nil_of_nextIsNumber hnumber)]
    exact readGroups_of_broken hc (Operands.read_append_of_stopped hread h) hmore
  | case3 ts hnumber =>
    refine readGroups_of_noNumber hc ?_
    rcases h with hts | ⟨letter, later, rfl⟩
    · have hts : ts ≠ [] := hts
      rw [nextIsNumber_append hts, Bool.eq_false_iff]
      exact hnumber
    · cases ts with
      | nil => rfl
      | cons t ts => exact Bool.eq_false_iff.2 hnumber

theorem readOperands_prefix (c : PathCommand) (ts us : List PathToken) :
    (c.readOperands ts).1 <+: (c.readOperands (ts ++ us)).1 := by
  unfold readOperands
  split
  · rename_i hc
    exact readGroups_prefix hc ts us
  · cases hread : Operands.read c.layout ts with
    | error stop => exact List.nil_prefix
    | ok found =>
      have hmore := Operands.read_append hread us
      exact ⟨[], by rw [hmore, List.append_nil]⟩

theorem readOperands_append {c : PathCommand} (ts us : List PathToken)
    (h : StaysStopped (leftOver (c.readOperands ts).2) us) :
    c.readOperands (ts ++ us) = ((c.readOperands ts).1, stopBefore us (c.readOperands ts).2) := by
  unfold readOperands at h ⊢
  split
  · rename_i hc
    rw [dif_pos hc] at h
    exact readGroups_append hc h
  · rename_i hc
    rw [dif_neg hc] at h
    cases hread : Operands.read c.layout ts with
    | ok found =>
      rw [Operands.read_append hread us]
      rfl
    | error stop =>
      rw [hread] at h
      rw [Operands.read_append_of_stopped hread h]
      rfl

end PathCommand

/-! ## Statements -/

namespace PathTokens

theorem statementsOf_unknown {fault : Option PathFault} {letter : Char} {ts : List PathToken}
    (h : PathCommand.ofLetter? letter.toLower = none) :
    statementsOf fault (.command letter :: ts) =
      ([], some (.unknownCommand letter.toLower)) := by
  rw [statementsOf]
  split <;> rename_i heq <;> cases h.symm.trans heq
  rfl

theorem statementsOf_misplaced {fault : Option PathFault} {t : PathToken} {ts : List PathToken}
    (h : ∀ letter, t ≠ .command letter) :
    statementsOf fault (t :: ts) = ([], some (.unexpectedToken t)) := by
  rw [statementsOf]
  exact h

theorem statementsOf_broken {fault : Option PathFault} {letter : Char} {ts rest : List PathToken}
    {command : PathCommand} {groups : List (Operands command.layout)}
    (hcommand : PathCommand.ofLetter? letter.toLower = some command)
    (hread : command.readOperands ts = (groups, .error rest)) :
    statementsOf fault (.command letter :: ts) =
      ([⟨command, letter.isLower, groups⟩], some (stop fault rest)) := by
  rw [statementsOf]
  split
  · rename_i hnone
    cases hcommand.symm.trans hnone
  · rename_i command' hcommand'
    cases hcommand.symm.trans hcommand'
    split <;> rename_i heq <;> cases hread.symm.trans heq
    rfl

/-- The statement of a known letter has the groups that are read for it, whatever follows. -/
theorem exists_statementsOf_command (fault : Option PathFault) {letter : Char}
    {command : PathCommand} (hcommand : PathCommand.ofLetter? letter.toLower = some command)
    (ts : List PathToken) :
    ∃ later, (statementsOf fault (.command letter :: ts)).1 =
      ⟨command, letter.isLower, (command.readOperands ts).1⟩ :: later := by
  rcases hread : command.readOperands ts with ⟨groups, rest | rest⟩
  · exact ⟨[], by rw [statementsOf_broken hcommand hread]⟩
  · exact ⟨_, by rw [statementsOf_command hcommand hread]⟩

/-- A fault in front of a token ends the longer list as well. -/
theorem statementsOf_append_of_fault {ts : List PathToken} {e : PathFault}
    (h : (statementsOf none ts).2 = some e) (he : e ≠ .unexpectedToken .endOfInput)
    (fault : Option PathFault) (us : List PathToken) :
    statementsOf fault (ts ++ us) = statementsOf none ts := by
  fun_induction statementsOf none ts with
  | case1 => cases h
  | case2 letter ts hnone => exact statementsOf_unknown hnone
  | case3 letter ts command hcommand groups rest hread later fault' hlater ih =>
    have hrest : rest ≠ [] := by
      rintro rfl
      rw [statementsOf] at hlater
      cases hlater
      cases h
    have hmore := PathCommand.readOperands_append ts us (.inl (by rw [hread]; exact hrest))
    rw [hread] at hmore
    rw [hlater] at ih
    rw [List.cons_append, statementsOf_command hcommand hmore, ih h]
  | case4 letter ts command hcommand groups rest hread =>
    have hstop : stop none rest = e := Option.some.inj h
    have hrest : rest ≠ [] := by
      rintro rfl
      exact he hstop.symm
    have hmore := PathCommand.readOperands_append ts us (.inl (by rw [hread]; exact hrest))
    rw [hread] at hmore
    rw [List.cons_append, statementsOf_broken hcommand hmore]
    obtain ⟨t, rest, rfl⟩ := List.exists_cons_of_ne_nil hrest
    rfl
  | case5 t ts hcommand => exact statementsOf_misplaced hcommand

end PathTokens

/-! ## Segments -/

namespace PathPlace

theorem drawEach_append (c : PathCommand) (relative : Bool) (s : PathPlace)
    (first last : List (Operands c.layout)) :
    (drawEach c relative s (first ++ last)).1 =
      (drawEach c relative s first).1 ++
        (drawEach c relative (drawEach c relative s first).2 last).1 := by
  induction first generalizing s with
  | nil => rfl
  | cons group first ih =>
    rw [List.cons_append, drawEach, drawEach]
    dsimp only
    rw [ih, List.append_assoc]

/-- What a statement draws comes first in what it draws with more groups and statements. -/
theorem drawAll_singleton_prefix (s : PathPlace) (c : PathCommand) (relative : Bool)
    {groups more : List (Operands c.layout)} (h : groups <+: more) (later : List PathStatement) :
    s.drawAll [⟨c, relative, groups⟩] <+: s.drawAll (⟨c, relative, more⟩ :: later) := by
  obtain ⟨last, rfl⟩ := h
  unfold drawAll
  dsimp only
  rw [drawAll, List.append_nil, drawEach_append, List.append_assoc]
  exact List.prefix_append _ _

/-- What tokens draw comes first in what they draw with more tokens behind them. -/
theorem drawAll_prefix (s : PathPlace) (ts us : List PathToken) (fault : Option PathFault) :
    s.drawAll (PathTokens.statementsOf none ts).1 <+:
      s.drawAll (PathTokens.statementsOf fault (ts ++ us)).1 := by
  -- The last statement, at whose groups reading came to an end, and what more tokens make of it.
  have hlast (s : PathPlace) {letter : Char} (ts : List PathToken) {c : PathCommand}
      (hc : PathCommand.ofLetter? letter.toLower = some c) :
      s.drawAll [⟨c, letter.isLower, (c.readOperands ts).1⟩] <+:
        s.drawAll (PathTokens.statementsOf fault (.command letter :: (ts ++ us))).1 := by
    obtain ⟨later, hlater⟩ := PathTokens.exists_statementsOf_command fault hc (ts ++ us)
    rw [hlater]
    exact drawAll_singleton_prefix s c _ (c.readOperands_prefix ts us) later
  fun_induction PathTokens.statementsOf none ts generalizing s with
  | case1 | case2 | case5 => exact List.nil_prefix
  | case3 letter ts c hc groups rest hread later fault' hfound ih =>
    by_cases hrest : rest = []
    · subst hrest
      rw [PathTokens.statementsOf] at hfound
      cases hfound
      have hprefix := hlast s ts hc
      rwa [hread] at hprefix
    · have hmore := PathCommand.readOperands_append ts us (.inl (by rw [hread]; exact hrest))
      rw [hread] at hmore
      rw [hfound] at ih
      rw [List.cons_append, PathTokens.statementsOf_command hc hmore]
      unfold drawAll
      exact (List.prefix_append_right_inj _).2 (ih _)
  | case4 letter ts c hc groups rest hread =>
    have hprefix := hlast s ts hc
    rwa [hread] at hprefix

end PathPlace

namespace PathData

theorem segments_eq (text : String) :
    (parse text).value.segments =
      PathPlace.drawAll {} (PathTokens.ofText text).statements.1 :=
  (parse_eq_statements text).1

/-- **Reading path data is monotone.** The segments of a text come first among those of the text
with spaces and any other text behind it. If the text has a fault other than that it ends too early,
there are no more than these. -/
theorem segments_append_space (text spaces later : String) (hne : spaces ≠ "")
    (hspaces : ∀ c ∈ spaces.toList, PathLexer.isSpace c) :
    let first := (parse text).value.segments
    let whole := (parse (text ++ spaces ++ later)).value.segments
    first <+: whole ∧
      ∀ fault ∈ faults text, fault ≠ .unexpectedToken .endOfInput → whole = first := by
  have htokens := PathTokens.continues_ofText text hne hspaces later
  intro first whole
  have hfirst : first = _ := segments_eq text
  have hwhole : whole = _ := segments_eq (text ++ spaces ++ later)
  rw [hfirst, hwhole, faults_eq]
  generalize PathTokens.ofText text = a at htokens ⊢
  generalize PathTokens.ofText (text ++ spaces ++ later) = b at htokens ⊢
  cases htokens with
  | broken list fault => exact ⟨List.prefix_rfl, fun _ _ _ => rfl⟩
  | more list us fault =>
    refine ⟨PathPlace.drawAll_prefix {} list us fault, fun e he hend => ?_⟩
    have he : (PathTokens.statementsOf none list).2 = some e := Option.mem_toList.1 he
    exact congrArg (fun found => PathPlace.drawAll {} found.1)
      (PathTokens.statementsOf_append_of_fault he hend fault us)

/-- A line breaks off at its second number, and is drawn once that number comes. -/
theorem segments_append_space_line :
    let text := "M 0,0 L 4"
    let first := (parse text).value.segments
    let whole := (parse (text ++ "\n" ++ "4 8,8")).value.segments
    "\n" ≠ "" ∧ (∀ c ∈ "\n".toList, PathLexer.isSpace c) ∧
      first.length = 1 ∧ whole.length = 3 ∧ first <+: whole ∧
      ∀ fault ∈ faults text, fault ≠ .unexpectedToken .endOfInput → whole = first := by
  intro text
  have hne : "\n" ≠ "" := by decide
  have hspaces : ∀ c ∈ "\n".toList, PathLexer.isSpace c := by
    intro c hc
    rw [List.mem_singleton.1 hc]
    rfl
  exact ⟨hne, hspaces, by decide +kernel, by decide +kernel,
    segments_append_space text "\n" "4 8,8" hne hspaces⟩

end PathData

end Xps
