import Wanfw.Js.Strings

/-!
# Lines of a text that arrives in pieces

A reader keeps what has arrived since the last end of a line, and goes on with every line that has
become complete. `eachLine_eq`: its loop does so for the complete lines of the buffer, in order, and
keeps the rest; `lines_append`: into which pieces the text was divided makes no difference.
-/

namespace Wanfw.Js

/-- The lines of a text that have an end, without it. -/
def completeLines (s : JsString) : List JsString := (split s 10).dropLast

/-- What follows the last end of a line. -/
def openLine (s : JsString) : JsString := (split s 10).getLastD []

/-- The loop of a reader, at most `fuel` times: the first complete line is taken out of the buffer. -/
def eachLine {σ : Type} (f : JsString → σ → σ) : ℕ → JsString → σ → JsString × σ
  | 0, buffer, s => (buffer, s)
  | fuel + 1, buffer, s =>
    match cut (js "\n") buffer with
    | some (line, rest) => eachLine f fuel rest (f line s)
    | none => (buffer, s)

section Lines

variable {l s t : JsString}

@[simp] theorem completeLines_nil : completeLines [] = [] := rfl

@[simp] theorem openLine_nil : openLine [] = [] := rfl

theorem completeLines_of_not_mem (h : (10 : UInt16) ∉ s) : completeLines s = [] := by
  rw [completeLines, split_of_not_mem h]
  rfl

theorem openLine_of_not_mem (h : (10 : UInt16) ∉ s) : openLine s = s := by
  rw [openLine, split_of_not_mem h]
  rfl

theorem completeLines_cons (h : (10 : UInt16) ∉ l) (t : JsString) : completeLines (l ++ 10 :: t) = l :: completeLines t := by
  have hne : split t 10 ≠ [] := List.splitOn_ne_nil _ _
  rw [completeLines, split_append_cons h, List.dropLast_cons_of_ne_nil hne]
  rfl

theorem openLine_cons (h : (10 : UInt16) ∉ l) (t : JsString) : openLine (l ++ 10 :: t) = openLine t := by
  have hne : split t 10 ≠ [] := List.splitOn_ne_nil _ _
  rw [openLine, openLine, split_append_cons h, List.getLastD_eq_getLast?, List.getLastD_eq_getLast?, List.getLast?_cons,
    Option.getD_some, List.getLast?_eq_some_getLast hne]
  rfl

theorem not_mem_openLine (s : JsString) : (10 : UInt16) ∉ openLine s := by
  have hne : split s 10 ≠ [] := List.splitOn_ne_nil _ _
  rw [openLine, List.getLastD_eq_getLast?, List.getLast?_eq_some_getLast hne]
  exact (mem_split (List.getLast_mem hne)).1

/-- A text without an end of a line, or one line and a text. -/
theorem lines_cases (s : JsString) : (10 : UInt16) ∉ s ∨ ∃ l t, s = l ++ 10 :: t ∧ (10 : UInt16) ∉ l := by
  by_cases h : (10 : UInt16) ∈ s
  · obtain ⟨l, t, rfl, hl⟩ := List.eq_append_cons_of_mem h
    exact .inr ⟨l, t, rfl, hl⟩
  · exact .inl h

theorem cut_newline_eq_none (h : (10 : UInt16) ∉ s) : cut (js "\n") s = none := by
  by_contra hne
  obtain ⟨⟨x, y⟩, hcut⟩ := Option.ne_none_iff_exists'.mp hne
  rw [eq_append_of_cut hcut] at h
  exact h (List.mem_append_left _ (List.mem_append_right _ (by decide)))

theorem cut_newline_cons (h : (10 : UInt16) ∉ l) (t : JsString) : cut (js "\n") (l ++ 10 :: t) = some (l, t) := by
  have htext : js "\n" = [10] := by decide
  rw [htext]
  induction l with
  | nil => rw [List.nil_append, cut, if_pos (by simp)]; rfl
  | cons u l ih =>
    obtain ⟨hu, hl⟩ := not_or.mp (List.mem_cons.not.mp h)
    rw [List.cons_append, cut, if_neg (by simpa using hu), ih hl]
    rfl

/-- **What arrives after a text** goes on with its last line. -/
theorem lines_append (s t : JsString) :
    completeLines (s ++ t) = completeLines s ++ completeLines (openLine s ++ t) ∧ openLine (s ++ t) = openLine (openLine s ++ t) := by
  induction hn : s.length using Nat.strong_induction_on generalizing s with
  | _ n ih =>
    rcases lines_cases s with h | ⟨l, r, rfl, hl⟩
    · rw [completeLines_of_not_mem h, openLine_of_not_mem h]
      exact ⟨rfl, rfl⟩
    · rw [List.append_assoc, List.cons_append, completeLines_cons hl, completeLines_cons hl, openLine_cons hl, openLine_cons hl]
      obtain ⟨hcomplete, hopen⟩ := ih r.length (by rw [← hn]; simp; omega) r rfl
      exact ⟨by rw [hcomplete, List.cons_append], hopen⟩

/-- Lines with their ends. -/
theorem lines_flatMap {ls : List JsString} (h : ∀ l ∈ ls, (10 : UInt16) ∉ l) :
    completeLines (ls.flatMap fun l => l ++ [10]) = ls ∧ openLine (ls.flatMap fun l => l ++ [10]) = [] := by
  induction ls with
  | nil => exact ⟨rfl, rfl⟩
  | cons l ls ih =>
    rw [List.forall_mem_cons] at h
    obtain ⟨hcomplete, hopen⟩ := ih h.2
    rw [List.flatMap_cons, List.append_assoc, List.singleton_append, completeLines_cons h.1, openLine_cons h.1, hcomplete, hopen]
    exact ⟨rfl, rfl⟩

/-- **The loop** goes on with the complete lines of the buffer, in order, and keeps the rest. -/
theorem eachLine_eq {σ : Type} (f : JsString → σ → σ) {fuel : ℕ} (hfuel : s.length ≤ fuel) (a : σ) :
    eachLine f fuel s a = (openLine s, (completeLines s).foldl (fun b l => f l b) a) := by
  induction fuel generalizing s a with
  | zero =>
    obtain rfl : s = [] := List.length_eq_zero_iff.mp (Nat.le_zero.mp hfuel)
    rfl
  | succ fuel ih =>
    rw [eachLine]
    rcases lines_cases s with h | ⟨l, t, rfl, hl⟩
    · rw [cut_newline_eq_none h, completeLines_of_not_mem h, openLine_of_not_mem h]
      rfl
    · rw [List.length_append, List.length_cons] at hfuel
      rw [cut_newline_cons hl, completeLines_cons hl, openLine_cons hl]
      exact ih (by omega) (f l a)

end Lines

end Wanfw.Js
