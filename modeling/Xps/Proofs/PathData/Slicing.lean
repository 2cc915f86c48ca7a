import Mathlib.Data.List.SplitBy
import Xps.PathData.Segment

/-!
# Slices of a path

A path is cut by a walk over the places of its segments that remembers where the open slice begins
(`PathData.Slicing`). The slices are the longest runs in which each segment continues the one before
it, without the runs of fill rules (`PathData.subpaths_eq`).

Wherever the walk stands, closing the open slice there gives the runs of the segments in front
(`Slicing.Stands.closed_eq`). Fill rules and moves do this on the way, and the end of the path does.
-/

namespace Xps.PathData

/-! ## Runs that nothing interrupts -/

/-- A segment stays in the subpath of the one before it. -/
def continues (s t : PathSegment) : Bool :=
  !s.isFillRule && !t.isFillRule && !t.isMove

theorem continues_eq_true_iff {s t : PathSegment} :
    continues s t = true ↔ s.isFillRule = false ∧ t.isFillRule = false ∧ t.isMove = false := by
  simp [continues, and_assoc]

/-- Each segment continues the one before it. -/
abbrev Unbroken (run : List PathSegment) : Prop := run.IsChain fun s t => continues s t

/-- The longest unbroken runs of some segments. -/
def runs (segments : List PathSegment) : List (List PathSegment) := segments.splitBy continues

/-- The runs without a fill rule. -/
def geometricRuns (runs : List (List PathSegment)) : List (List PathSegment) :=
  runs.filter fun run => !run.any PathSegment.isFillRule

/-- Behind some segments stands a run that does not continue them. -/
structure Begins (before run : List PathSegment) : Prop where
  ne_nil : run ≠ []
  unbroken : Unbroken run
  apart : ∀ s ∈ before.getLast?, ∀ t ∈ run.head?, continues s t = false

variable {before run : List PathSegment} {s : PathSegment}

theorem Begins.runs_append (h : Begins before run) :
    runs (before ++ run) = runs before ++ [run] := by
  unfold runs
  rw [List.splitBy_append h.apart, List.splitBy_of_isChain h.ne_nil h.unbroken]

theorem begins_singleton (h : ∀ last ∈ before.getLast?, continues last s = false) :
    Begins before [s] where
  ne_nil := List.cons_ne_nil s []
  unbroken := .singleton s
  apart last hlast t ht := by
    cases ht
    exact h last hlast

theorem begins_move (hs : s.isMove) : Begins before [s] :=
  begins_singleton fun last _ => by simp [continues, hs]

theorem begins_fillRule (hs : s.isFillRule) : Begins before [s] :=
  begins_singleton fun last _ => by simp [continues, hs]

/-- A run goes on. -/
theorem Begins.concat (h : Begins before run)
    (hs : ∀ last ∈ run.getLast?, continues last s = true) : Begins before (run ++ [s]) where
  ne_nil := by simp
  unbroken := h.unbroken.append (.singleton s) fun last hlast t ht => by
    cases ht
    exact hs last hlast
  apart last hlast t ht := by
    rw [List.head?_append_of_ne_nil _ h.ne_nil] at ht
    exact h.apart last hlast t ht

/-- A fill rule separates runs, and is none of them. -/
theorem geometricRuns_append_fillRule (hs : s.isFillRule) (before after : List PathSegment) :
    geometricRuns (runs (before ++ s :: after)) =
      geometricRuns (runs before) ++ geometricRuns (runs after) := by
  have hafter : ∀ last ∈ (before ++ [s]).getLast?, ∀ t ∈ after.head?, continues last t = false := by
    simp [continues, hs]
  have hruns : runs (before ++ s :: after) = runs before ++ [s] :: runs after := by
    rw [List.append_cons, runs, List.splitBy_append hafter, ← runs, ← runs,
      (begins_fillRule hs).runs_append, List.append_assoc, List.singleton_append]
  rw [hruns]
  simp [geometricRuns, hs]

theorem geometricRuns_append (h : Begins before run) (hrun : ∀ s ∈ run, s.isFillRule = false) :
    geometricRuns (runs (before ++ run)) = geometricRuns (runs before) ++ [run] := by
  rw [h.runs_append]
  simpa [geometricRuns] using hrun

/-! ## The walk -/

variable {p : PathData} {front back : List PathSegment} {x : Slicing}

theorem slice_of_append (hp : p.segments = before ++ run ++ back) :
    p.slice before.length (before ++ run).length = run := by
  rw [slice, hp, List.extract_eq_take_drop, List.append_assoc, List.drop_left, List.length_append,
    Nat.add_sub_cancel_left, List.take_left]

namespace Slicing

/-- Where a walk stands behind some segments. -/
inductive Stands : List PathSegment → Slicing → Prop
  /-- No slice is open at first and behind a fill rule. -/
  | outside {front : List PathSegment} {slices : Array (List PathSegment)} :
    (∀ last ∈ front.getLast?, last.isFillRule) → slices.toList = geometricRuns (runs front) →
      Stands front ⟨none, slices⟩
  /-- The open slice is the last run. -/
  | inside {before run : List PathSegment} {slices : Array (List PathSegment)} :
    Begins before run → (∀ s ∈ run, s.isFillRule = false) →
      slices.toList = geometricRuns (runs before) →
      Stands (before ++ run) ⟨some before.length, slices⟩

/-- **Closing the open slice gives the runs of the segments in front.** -/
theorem Stands.closed_eq (h : Stands front x) (hp : p.segments = front ++ back) :
    (x.closed p front.length).toList = geometricRuns (runs front) := by
  cases h with
  | outside _ hslices => exact hslices
  | @inside before run slices hrun hplain hslices =>
    have hclosed : closed p (before ++ run).length ⟨some before.length, slices⟩ =
        slices.push (p.slice before.length (before ++ run).length) := rfl
    rw [geometricRuns_append hrun hplain, ← hslices, hclosed, slice_of_append hp,
      Array.toList_push]

/-- Over a segment that is drawn, the walk opens a slice or stays in the open one. -/
theorem Stands.draw (h : Stands front x) (hs : s.isFillRule = false) (hmove : s.isMove = false) :
    Stands (front ++ [s]) { x with start := x.start.or (some front.length) } := by
  cases h with
  | outside hlast hslices =>
    refine .inside (begins_singleton fun last hmem => ?_) ?_ hslices
    · simp [continues, hlast last hmem]
    · simpa using hs
  | @inside before run slices hrun hplain hslices =>
    rw [List.append_assoc]
    refine .inside (hrun.concat fun last hmem => ?_) ?_ hslices
    · exact continues_eq_true_iff.2 ⟨hplain last (List.mem_of_getLast? hmem), hs, hmove⟩
    · exact List.forall_mem_append.2 ⟨hplain, by simpa using hs⟩

theorem Stands.step (h : Stands front x) (hp : p.segments = front ++ s :: back) :
    Stands (front ++ [s]) (x.step p (s, front.length)) := by
  have hclosed := h.closed_eq hp
  cases s with
  | fillRule rule =>
    have hruns := geometricRuns_append_fillRule (s := .fillRule rule) rfl front []
    refine .outside ?_ (hclosed.trans ?_)
    · intro last hlast
      rw [List.getLast?_concat] at hlast
      cases hlast
      rfl
    · rw [hruns]
      exact (List.append_nil _).symm
  | move q =>
    have hplain : ∀ s ∈ [PathSegment.move q], s.isFillRule = false := by
      rw [List.forall_mem_singleton]
      rfl
    exact .inside (begins_move rfl) hplain hclosed
  | line | cubic | quad | close => exact h.draw rfl rfl

theorem Stands.walk (h : Stands front x) (hp : p.segments = front ++ back) :
    Stands p.segments ((back.zipIdx front.length).foldl (Slicing.step p) x) := by
  -- The path stays the same, for all slices are cut out of it. What is left of it gets shorter.
  induction back generalizing front x with
  | nil =>
    rw [hp, List.append_nil]
    exact h
  | cons s back ih =>
    rw [List.zipIdx_cons, List.foldl_cons]
    have hlength : front.length + 1 = (front ++ [s]).length := by simp
    rw [hlength]
    exact ih (h.step hp) (by rw [hp, List.append_assoc, List.singleton_append])

end Slicing

/-- **The slices of a path are its longest unbroken runs**, those of fill rules apart. -/
theorem subpaths_eq (p : PathData) : p.subpaths = geometricRuns (runs p.segments) := by
  have hstart : Slicing.Stands [] {} := .outside (fun _ h => nomatch h) rfl
  have hend : Slicing.Stands p.segments (p.segments.zipIdx.foldl (Slicing.step p) {}) :=
    hstart.walk (List.nil_append _).symm
  exact hend.closed_eq (List.append_nil _).symm

end Xps.PathData
