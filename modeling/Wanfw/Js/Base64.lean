import Wanfw.Js.Strings
import Mathlib.Data.List.DropRight

/-!
# Base 64

Bytes as text: three bytes are four characters of six bits each, and the last group is
filled up. `map_sextets_inj`: the characters of the groups determine the bytes.
-/

namespace Wanfw.Js

/-- Bytes in groups of six bits, the last one filled up with zeros. -/
def sextets : List UInt8 → List ℕ
  | [] => []
  | [a] => [a.toNat / 4, a.toNat % 4 * 16]
  | [a, b] => [a.toNat / 4, a.toNat % 4 * 16 + b.toNat / 16, b.toNat % 16 * 4]
  | a :: b :: c :: rest =>
    (a.toNat / 4) :: (a.toNat % 4 * 16 + b.toNat / 16) :: (b.toNat % 16 * 4 + c.toNat / 64) :: (c.toNat % 64) :: sextets rest

/-- The characters. -/
def base64Alphabet : JsString := js "ABCDEFGHIJKLMNOPQRSTUVWXYZabcdefghijklmnopqrstuvwxyz0123456789+/"

/-- The character of six bits. -/
def base64Unit (n : ℕ) : UInt16 := base64Alphabet.getD n 61

/-- `bytes.toString("base64")`. -/
def base64 (bytes : List UInt8) : JsString :=
  (sextets bytes).map base64Unit ++ List.replicate ((3 - bytes.length % 3) % 3) 61

theorem sextets_lt (bytes : List UInt8) : ∀ n ∈ sextets bytes, n < 64 := by
  fun_induction sextets bytes with
  | case1 => simp
  | case2 a =>
    have ha := a.toNat_lt
    simp only [List.mem_cons, List.not_mem_nil, or_false]
    omega
  | case3 a b =>
    have ha := a.toNat_lt
    have hb := b.toNat_lt
    simp only [List.mem_cons, List.not_mem_nil, or_false]
    omega
  | case4 a b c rest ih =>
    have ha := a.toNat_lt
    have hb := b.toNat_lt
    have hc := c.toNat_lt
    intro n hn
    simp only [List.mem_cons] at hn
    rcases hn with hn | hn | hn | hn | hn
    · omega
    · omega
    · omega
    · omega
    · exact ih n hn

/-- The groups determine the bytes. -/
theorem sextets_inj {xs ys : List UInt8} (h : sextets xs = sextets ys) : xs = ys := by
  have hbyte : ∀ {a b : UInt8}, a.toNat = b.toNat → a = b := UInt8.toNat_inj.mp
  fun_induction sextets xs generalizing ys with
  | case1 =>
    rcases ys with _ | ⟨a, _ | ⟨b, _ | ⟨c, ys⟩⟩⟩ <;> simp_all [sextets]
  | case2 a =>
    have ha := a.toNat_lt
    rcases ys with _ | ⟨x, _ | ⟨y, _ | ⟨z, ys⟩⟩⟩ <;> simp only [sextets, List.cons.injEq, reduceCtorEq, and_false] at h
    rw [hbyte (show a.toNat = x.toNat by omega)]
  | case3 a b =>
    have ha := a.toNat_lt
    have hb := b.toNat_lt
    rcases ys with _ | ⟨x, _ | ⟨y, _ | ⟨z, ys⟩⟩⟩ <;> simp only [sextets, List.cons.injEq, reduceCtorEq, and_false] at h
    have hx := x.toNat_lt
    have hy := y.toNat_lt
    rw [hbyte (show a.toNat = x.toNat by omega), hbyte (show b.toNat = y.toNat by omega)]
  | case4 a b c rest ih =>
    have ha := a.toNat_lt
    have hb := b.toNat_lt
    have hc := c.toNat_lt
    rcases ys with _ | ⟨x, _ | ⟨y, _ | ⟨z, ys⟩⟩⟩ <;> simp only [sextets, List.cons.injEq, reduceCtorEq, and_false] at h
    have hx := x.toNat_lt
    have hy := y.toNat_lt
    have hz := z.toNat_lt
    rw [hbyte (show a.toNat = x.toNat by omega), hbyte (show b.toNat = y.toNat by omega),
      hbyte (show c.toNat = z.toNat by omega), ih h.2.2.2.2]

theorem base64Unit_inj {f : UInt16 → UInt16} (hf : (base64Alphabet.map f).Nodup) {m n : ℕ} (hm : m < 64) (hn : n < 64)
    (h : f (base64Unit m) = f (base64Unit n)) : m = n := by
  have hlength : (base64Alphabet.map f).length = 64 := by
    rw [List.length_map]
    decide
  have hunit : ∀ k, k < 64 → f (base64Unit k) = (base64Alphabet.map f).getD k (f 61) := by
    intro k _
    rw [base64Unit, List.getD_map]
  rw [hunit m hm, hunit n hn, List.getD_eq_getElem _ _ (hlength ▸ hm), List.getD_eq_getElem _ _ (hlength ▸ hn)] at h
  exact hf.getElem_inj_iff.mp h

/-- No character of a group is the one that fills the text up. -/
theorem base64Unit_ne {n : ℕ} (hn : n < 64) : base64Unit n ≠ 61 := by
  have hlength : base64Alphabet.length = 64 := by decide
  have hno : (61 : UInt16) ∉ base64Alphabet := by decide
  unfold base64Unit
  rw [List.getD_eq_getElem _ _ (hlength ▸ hn)]
  exact fun h => hno (h ▸ List.getElem_mem _)

/-- Texts of groups, through a map that tells the characters apart. -/
theorem map_sextets_inj {f : UInt16 → UInt16} (hf : (base64Alphabet.map f).Nodup)
    {xs ys : List UInt8} (h : (sextets xs).map (f ∘ base64Unit) = (sextets ys).map (f ∘ base64Unit)) : xs = ys := by
  have hgroups : ∀ us vs : List ℕ, (∀ n ∈ us, n < 64) → (∀ n ∈ vs, n < 64) →
      us.map (f ∘ base64Unit) = vs.map (f ∘ base64Unit) → us = vs := by
    intro us
    induction us with
    | nil => simp_all
    | cons u us ih =>
      intro vs hus hvs heq
      cases vs with
      | nil => cases heq
      | cons v vs =>
        rw [List.map_cons, List.map_cons, List.cons.injEq] at heq
        rw [base64Unit_inj hf (hus u (by simp)) (hvs v (by simp)) heq.1,
          ih vs (fun n hn => hus n (by simp [hn])) (fun n hn => hvs n (by simp [hn])) heq.2]
  exact sextets_inj (hgroups _ _ (sextets_lt xs) (sextets_lt ys) h)

/-- `text.replace(/=+$/, "")`. -/
def trimPadding (t : JsString) : JsString := t.rdropWhile (· == 61)

theorem trimPadding_append {t : JsString} (h : 61 ∉ t) (n : ℕ) : trimPadding (t ++ List.replicate n 61) = t := by
  unfold trimPadding
  induction n with
  | zero =>
    rw [List.replicate_zero, List.append_nil, List.rdropWhile_eq_self_iff]
    intro hne heq
    exact h (by simpa using (beq_iff_eq.mp heq) ▸ List.getLast_mem hne)
  | succ n ih => rw [List.replicate_succ', ← List.append_assoc, List.rdropWhile_concat_pos _ _ _ (by rfl), ih]

end Wanfw.Js
