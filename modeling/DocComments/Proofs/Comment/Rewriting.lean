import DocComments.Proofs.Comment.Extraction
import Mathlib.Data.List.Forall2
import Mathlib.Data.Option.Defs

/-!
# Sources that are read alike

A source may be written in another way without changing what is found in it: with other delimiters,
or with other line endings. Either way every line is rewritten by itself, knowing only what stands
below it (`Text.rewriteLines`). If on every line a comment opens just when one opens on the rewritten
line, and the two have the same number of lines, then the walks over both sources find their comments
on the same lines: `Reading.rewritten`.
-/

namespace DocComments

open Text

theorem map_eq_map_of_forall₂ {α β γ : Type} {related : α → β → Prop} {left : List α}
    {right : List β} {f : α → γ} {g : β → γ} (alike : List.Forall₂ related left right)
    (same : ∀ a b, b ∈ right → related a b → g b = f a) : right.map g = left.map f := by
  induction alike with
  | nil => rfl
  | cons here later ih =>
      rw [List.map_cons, List.map_cons, same _ _ List.mem_cons_self here,
        ih fun a b member => same a b (List.mem_cons_of_mem _ member)]

namespace Markers

variable {markers markers' : Markers} {before before' rows : List Text}
  {located : List (LineRange × Match)} {rewrite : Text → List Text → Text}
  {same : Match → Match → Prop}

/-- Two matches that have equally many lines and are the same in the sense of `same`. -/
def MatchesAlike (same : Match → Match → Prop) (found found' : Match) : Prop :=
  found'.raw.breaks = found.raw.breaks ∧ same found found'

/-- Lines on which the same comments open are walked alike. -/
theorem Reading.rewritten (reading : Reading markers before rows located)
    (whole : Unbroken rows) (whole' : Unbroken (rewriteLines rewrite rows))
    (opensAlike : ∀ row later, row :: later <:+ rows → ∀ offset offset',
      Option.Rel (MatchesAlike same) (markers.matchAt? offset (row ++ lineTail later))
        (markers'.matchAt? offset'
          (rewrite row later ++ lineTail (rewriteLines rewrite later))))
    (aligned : before'.length = before.length) :
    ∃ located', Reading markers' before' (rewriteLines rewrite rows) located' ∧
      List.Forall₂ (fun entry entry' => entry'.1 = entry.1 ∧ same entry.2 entry'.2)
        located located' := by
  induction reading generalizing before' with
  | nil => exact ⟨[], .nil, .nil⟩
  | passed opensNone rest ih =>
      rename_i before later row located
      have step := opensAlike row later List.suffix_rfl (lineHead before).byteSize
        (lineHead before').byteSize
      rw [opensNone] at step
      generalize attempt : markers'.matchAt? _ _ = result at step
      cases step
      obtain ⟨located', reading', alike⟩ :=
        @ih (before' ++ [rewrite row later]) (unbroken_cons.mp whole).2 (unbroken_cons.mp whole').2
          (fun line below suffix => opensAlike line below (suffix.trans (List.suffix_cons _ _)))
          (by simp [aligned])
      exact ⟨located', .passed attempt reading', alike⟩
  | comment opening covers rest ih =>
      rename_i before covered below row found located
      obtain ⟨rowWhole, laterWhole⟩ := unbroken_cons.mp whole
      obtain ⟨covered', split, size⟩ := exists_rewriteLines_append rewrite covered below
      have step := opensAlike row (covered ++ below) List.suffix_rfl (lineHead before).byteSize
        (lineHead before').byteSize
      rw [(matchAt?_eq_some_iff rowWhole).mpr opening, split] at step
      rw [rewriteLines, split] at whole' ⊢
      obtain ⟨rowWhole', laterWhole'⟩ := unbroken_cons.mp whole'
      generalize attempt : markers'.matchAt? _ _ = result at step
      obtain ⟨count, related⟩ := step
      have further : ∀ line more, line :: more <:+ below →
          line :: more <:+ row :: (covered ++ below) := fun line more suffix =>
        (suffix.trans (List.suffix_append _ _)).trans (List.suffix_cons _ _)
      obtain ⟨located', reading', alike⟩ :=
        @ih (before' ++ rewrite row (covered ++ below) :: covered')
          (unbroken_append.mp laterWhole).2 (unbroken_append.mp laterWhole').2
          (fun line more suffix => opensAlike line more (further line more suffix))
          (by simp [aligned, size])
      refine ⟨_, .comment ((matchAt?_eq_some_iff rowWhole').mp attempt) ?_ reading', ?_⟩
      · rw [size, covers, count]
      · refine .cons ⟨?_, related⟩ alike
        rw [aligned, size]

end Markers

end DocComments
