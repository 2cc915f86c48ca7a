import Xps.Markup.Reader

/-!
# Markup is read online

A piece ends with a closing bracket, and a reader that succeeds on it succeeds in the same way on
every text that begins with the piece, with what follows left over (`piece_used`, `next_used`). So
the events of a text are a prefix of the events of each longer text, wherever the text is cut
(`Markup.events_append`).
-/

namespace Xps

/-! ## Delimiters -/

theorem Text.splitAt_used {mark s before after : List Char} (hmark : mark ≠ [])
    (h : splitAt? mark s = some (before, after)) :
    s = before ++ mark ++ after ∧
      ∀ u, splitAt? mark (before ++ mark ++ u) = some (before, u) := by
  induction s generalizing before with
  | nil => cases h
  | cons c s ih =>
    unfold splitAt? at h
    split at h
    · rename_i hp
      cases h
      obtain ⟨m, ms, rfl⟩ := List.exists_cons_of_ne_nil hmark
      refine ⟨(List.prefix_iff_eq_append.1 (List.isPrefixOf_iff_prefix.1 hp)).symm, fun u => ?_⟩
      rw [List.nil_append, List.cons_append, splitAt?, ← List.cons_append,
        if_pos (List.isPrefixOf_iff_prefix.2 (List.prefix_append _ u)), List.drop_left]
    · rename_i hp
      obtain ⟨⟨before', after'⟩, hs, he⟩ := Option.map_eq_some_iff.1 h
      cases he
      obtain ⟨rfl, hused⟩ := ih hs
      refine ⟨rfl, fun u => ?_⟩
      -- the mark would end before the addition begins, since it still fits further on
      have hp' : ¬ mark.isPrefixOf (c :: (before' ++ mark ++ u)) := fun hp' => by
        rw [List.isPrefixOf_iff_prefix] at hp hp'
        have hshort : mark <+: c :: (before' ++ mark) :=
          List.prefix_of_prefix_length_le hp' (List.prefix_append (c :: (before' ++ mark)) u)
            (by simp only [List.length_cons, List.length_append]; omega)
        exact hp (hshort.trans (List.prefix_append (c :: (before' ++ mark)) after))
      rw [List.cons_append, List.cons_append, splitAt?, if_neg hp', hused u]
      rfl

namespace Markup

theorem splitTag_used {quote : Option Char} {s before after : List Char}
    (h : splitTag? quote s = some (before, after)) :
    s = before ++ '>' :: after ∧
      ∀ u, splitTag? quote (before ++ '>' :: u) = some (before, u) := by
  induction s generalizing quote before with
  | nil => cases h
  | cons c s ih =>
    unfold splitTag? at h
    split at h
    · rename_i hc
      cases h
      rw [hc.1, hc.2]
      exact ⟨rfl, fun _ => rfl⟩
    · rename_i hc
      dsimp only at h
      obtain ⟨⟨before', after'⟩, hs, he⟩ := Option.map_eq_some_iff.1 h
      cases he
      obtain ⟨rfl, hused⟩ := ih hs
      refine ⟨rfl, fun u => ?_⟩
      rw [List.cons_append]
      unfold splitTag?
      rw [if_neg hc]
      dsimp only
      rw [hused]
      rfl

theorem splitDoctype_used {depth : Nat} {s before after : List Char}
    (h : splitDoctype? depth s = some (before, after)) :
    s = before ++ '>' :: after ∧
      ∀ u, splitDoctype? depth (before ++ '>' :: u) = some (before, u) := by
  induction s generalizing depth before with
  | nil => cases h
  | cons c s ih =>
    unfold splitDoctype? at h
    split at h
    · rename_i hc
      cases h
      rw [hc.1, hc.2]
      exact ⟨rfl, fun _ => rfl⟩
    · rename_i hc
      dsimp only at h
      obtain ⟨⟨before', after'⟩, hs, he⟩ := Option.map_eq_some_iff.1 h
      cases he
      obtain ⟨rfl, hused⟩ := ih hs
      refine ⟨rfl, fun u => ?_⟩
      rw [List.cons_append, splitDoctype?, if_neg hc]
      dsimp only
      rw [hused]
      rfl

/-! ## Pieces -/

/-- The word of verbatim text lies in front of the mark that ends it. -/
theorem prefix_of_splitAt_verbatim {s before after : List Char}
    (h : Text.splitAt? "]]>".toList s = some (before, after)) (hword : "CDATA[".toList <+: s) :
    "CDATA[".toList <+: before := by
  have hs := (Text.splitAt_used (by decide) h).1
  have hlen : "CDATA[".toList.length ≤ before.length := Nat.le_of_not_lt fun hlt => by
    -- a letter of the word would be the first bracket of the mark
    have hletter : ∀ n < 6, "CDATA[".toList[n]? ≠ some ']' := by decide
    refine hletter before.length hlt ?_
    have hbracket : s[before.length]? = some ']' := by
      rw [hs, List.append_assoc, List.getElem?_append_right (Nat.le_refl _), Nat.sub_self]
      rfl
    obtain ⟨later, rfl⟩ := hword
    rwa [List.getElem?_append_left hlt] at hbracket
  rw [hs, List.append_assoc] at hword
  exact List.prefix_of_prefix_length_le hword (List.prefix_append _ _) hlen

theorem bang_used {s rest : List Char} (h : bang s = .ok rest) :
    ∃ used, s = used ++ '>' :: rest ∧ ∀ u, bang (used ++ '>' :: u) = .ok u := by
  revert h
  fun_cases bang s with
  | case1 s before after hs hword =>
    rintro ⟨⟩
    rw [List.isPrefixOf_iff_prefix] at hword
    obtain ⟨hsplit, hused⟩ := Text.splitAt_used (by decide) hs
    refine ⟨'[' :: before ++ [']', ']'], by rw [hsplit]; simp, fun u => ?_⟩
    have hmark : before ++ [']', ']'] ++ '>' :: u = before ++ "]]>".toList ++ u := by simp
    rw [List.cons_append, List.cons_append, bang, hmark, hused]
    exact if_pos (List.isPrefixOf_iff_prefix.2 ((prefix_of_splitAt_verbatim hs hword).trans
      (List.append_assoc before _ u ▸ List.prefix_append _ _)))
  | case4 s before after hs =>
    rintro ⟨⟩
    obtain ⟨hsplit, hused⟩ := Text.splitAt_used (by decide) hs
    refine ⟨'-' :: '-' :: before ++ ['-', '-'], by rw [hsplit]; simp, fun u => ?_⟩
    have hmark : before ++ ['-', '-'] ++ '>' :: u = before ++ "-->".toList ++ u := by simp
    rw [List.cons_append, List.cons_append, List.cons_append, List.cons_append, bang, hmark, hused]
  | case9 c s hverbatim hcomment hdash hc before after hs hword hname =>
    rintro ⟨⟩
    obtain ⟨rfl, hused⟩ := splitDoctype_used hs
    refine ⟨c :: before, rfl, fun u => ?_⟩
    rw [List.cons_append, bang, if_pos hc, hused]
    · dsimp only
      rw [if_neg hword, if_neg hname]
    · exact hverbatim
    · exact fun s' h => absurd h hdash
    · exact hdash
  | _ => rintro ⟨⟩

theorem instruction_used {s rest : List Char} (h : instruction s = .ok rest) :
    ∃ used, s = used ++ '>' :: rest ∧ ∀ u, instruction (used ++ '>' :: u) = .ok u := by
  revert h
  fun_cases instruction s with
  | case1 => rintro ⟨⟩
  | case2 s hclosed before after hs =>
    rintro ⟨⟩
    obtain ⟨rfl, hused⟩ := Text.splitAt_used (by decide) hs
    refine ⟨before ++ ['?'], by simp, fun u => ?_⟩
    have hmark : before ++ ['?'] ++ '>' :: u = before ++ "?>".toList ++ u := by simp
    rw [hmark, instruction, hused]
    intro s' h
    cases before with
    | nil => cases h
    | cons c before =>
      cases h
      exact hclosed _ rfl
  | case3 => rintro ⟨⟩

/-- A piece ends with a closing bracket, and nothing behind it is looked at. -/
theorem piece_used {s rest : List Char} {p : Piece} (h : piece s = .ok (p, rest)) :
    ∃ used, s = used ++ '>' :: rest ∧ ∀ u, piece (used ++ '>' :: u) = .ok (p, u) := by
  revert h
  fun_cases piece s with
  | case1 => rintro ⟨⟩
  | case2 s =>
    intro h
    cases hb : bang s with
    | error e => rw [hb] at h; cases h
    | ok rest' =>
      rw [hb] at h
      cases h
      obtain ⟨used, rfl, hused⟩ := bang_used hb
      exact ⟨'!' :: used, rfl, fun u => by rw [List.cons_append, piece, hused]; rfl⟩
  | case3 s =>
    intro h
    cases hi : instruction s with
    | error e => rw [hi] at h; cases h
    | ok rest' =>
      rw [hi] at h
      cases h
      obtain ⟨used, rfl, hused⟩ := instruction_used hi
      exact ⟨'?' :: used, rfl, fun u => by rw [List.cons_append, piece, hused]; rfl⟩
  | case4 s content rest hs =>
    rintro ⟨⟩
    obtain ⟨rfl, hused⟩ := splitTag_used hs
    exact ⟨'/' :: content, rfl, fun u => by rw [List.cons_append, piece, hused]⟩
  | case5 => rintro ⟨⟩
  | case6 s hnil hbang hquestion hslash content rest hs =>
    rintro ⟨⟩
    obtain ⟨rfl, hused⟩ := splitTag_used hs
    refine ⟨content, rfl, fun u => ?_⟩
    have hfirst (c : Char) (s' : List Char) (h : content ++ '>' :: u = c :: s') :
        ∃ s'', content ++ '>' :: rest = c :: s'' := by
      cases content <;> cases h <;> exact ⟨_, rfl⟩
    rw [piece, hused]
    · simp
    · intro s' h
      obtain ⟨s'', h'⟩ := hfirst '!' s' h
      exact hbang s'' h'
    · intro s' h
      obtain ⟨s'', h'⟩ := hfirst '?' s' h
      exact hquestion s'' h'
    · intro s' h
      obtain ⟨s'', h'⟩ := hfirst '/' s' h
      exact hslash s'' h'
  | case7 => rintro ⟨⟩

end Markup

/-! ## Events -/

namespace MarkupReader

open Markup

/-- There is a next piece when one is read behind the next opening bracket and its tag nests. -/
theorem next_eq_some_iff {r r' : MarkupReader} {p : Piece} :
    r.next = .ok (some (p, r')) ↔
      ∃ c s, r.rest.dropWhile (· != '<') = c :: s ∧ piece s = .ok (p, r'.rest) ∧
        enter r.opened p = .ok r'.opened := by
  unfold next
  cases hd : r.rest.dropWhile (· != '<') with
  | nil => simp
  | cons c s =>
    dsimp only [bind, Except.bind]
    constructor
    · intro h
      cases hp : piece s with
      | error e => rw [hp] at h; cases h
      | ok x =>
        rw [hp] at h
        dsimp only at h
        cases he : enter r.opened x.1 with
        | error e => rw [he] at h; cases h
        | ok opened =>
          rw [he] at h
          cases h
          exact ⟨c, s, rfl, hp, he⟩
    · rintro ⟨_, _, ⟨⟩, hp, he⟩
      rw [hp]
      dsimp only
      rw [he]
      rfl

/-- What is read up to the end of a piece is read whatever follows. -/
theorem next_used {r r' : MarkupReader} {p : Piece} (h : r.next = .ok (some (p, r'))) :
    ∃ used, r.rest = used ++ '>' :: r'.rest ∧
      ∀ u, next ⟨used ++ '>' :: u, r.opened⟩ = .ok (some (p, ⟨u, r'.opened⟩)) := by
  obtain ⟨c, s, hd, hp, he⟩ := next_eq_some_iff.1 h
  obtain ⟨used, rfl, hused⟩ := piece_used hp
  refine ⟨r.rest.takeWhile (· != '<') ++ c :: used, ?_, fun u => ?_⟩
  · rw [List.append_assoc, List.cons_append, ← hd, List.takeWhile_append_dropWhile]
  · refine next_eq_some_iff.2 ⟨c, used ++ '>' :: u, ?_, hused u, he⟩
    have hc : ¬ (c != '<') := by
      have := List.head?_dropWhile_not (· != '<') r.rest
      rw [hd] at this
      exact Bool.not_eq_true _ ▸ this
    dsimp only
    rw [List.append_assoc, List.dropWhile_append_of_pos (List.all_eq_true.1 List.all_takeWhile),
      List.cons_append]
    exact List.dropWhile_cons_of_neg hc

/-- The reader of a text that is longer at its end. -/
def extend (r : MarkupReader) (u : List Char) : MarkupReader := { r with rest := r.rest ++ u }

theorem next_extend {r r' : MarkupReader} {p : Piece} (h : r.next = .ok (some (p, r')))
    (u : List Char) : (r.extend u).next = .ok (some (p, r'.extend u)) := by
  obtain ⟨used, hrest, hused⟩ := next_used h
  unfold extend
  rw [hrest, List.append_assoc, List.cons_append]
  exact hused (r'.rest ++ u)

/-- Whatever follows a text comes after its events. -/
theorem events_extend (r : MarkupReader) (names : List String) (u : List Char) :
    (r.events names).1 <+: ((r.extend u).events names).1 := by
  fun_induction events r names with
  | case1 => exact List.nil_prefix
  | case2 => exact List.nil_prefix
  | case3 => exact List.nil_prefix
  | case4 r names piece r' hn found hf later e hl ih =>
    have hu : ((r.extend u).events names).1 =
        found ++ ((r'.extend u).events (unclosed names piece)).1 := by
      rw [events]
      split
      · rename_i hn'; rw [next_extend hn u] at hn'; cases hn'
      · rename_i hn'; rw [next_extend hn u] at hn'; cases hn'
      · rename_i hn'
        rw [next_extend hn u] at hn'
        cases hn'
        rw [hf]
    rw [hu]
    rw [hl] at ih
    exact (List.prefix_append_right_inj found).2 ih

end MarkupReader

/-- A reader of a longer text has more to come, unless nothing but byte order marks comes first. -/
theorem MarkupReader.ofText_append (t u : String) :
    ofText (t ++ u) =
      if (ofText t).rest.isEmpty then ofText u else (ofText t).extend u.toList := by
  unfold ofText Text.dropByteOrderMarks extend
  rw [String.toList_append, List.dropWhile_append]
  split <;> rfl

/-- The events of a text are a prefix of the events of every longer text. -/
theorem Markup.events_append (t u : String) : (events t).1 <+: (events (t ++ u)).1 := by
  unfold events
  refine (List.cons_prefix_cons).2 ⟨rfl, ?_⟩
  rw [MarkupReader.ofText_append]
  split
  · rename_i h
    have hnil : MarkupReader.ofText t = ⟨[], []⟩ :=
      congrArg (MarkupReader.mk · []) (List.isEmpty_iff.1 h)
    rw [hnil]
    unfold MarkupReader.events
    exact List.nil_prefix
  · exact MarkupReader.events_extend _ _ _

end Xps
