import Wanfw.Js.JsonParse
import Wanfw.Js.Regex

/-!
# Texts of values as lines

What a line of a log rests on: the text of a value has no control character, so that a
line break ends it (`noControl_stringify`), it is not blank (`trim_stringify_ne_nil`), and a text that is read ends with a unit that
can close a value, so that a text with anything else behind it is none (`parse_eq_none_of_last`).
-/

namespace Wanfw.Js

/-! ### No control characters -/

/-- No unit below the space. -/
def NoControl (s : JsString) : Prop := ∀ u ∈ s, 32 ≤ u.toNat

theorem NoControl.append {s t : JsString} (hs : NoControl s) (ht : NoControl t) : NoControl (s ++ t) := by
  intro u hu
  rcases List.mem_append.mp hu with h | h
  · exact hs u h
  · exact ht u h

theorem noControl_quoteUnit (u : UInt16) : NoControl (quoteUnit u) := by
  have hex : ∀ n, n < 16 → 32 ≤ (hexDigit n).toNat := by
    intro n hn
    unfold hexDigit
    split <;> simp [Nat.toUInt16] <;> omega
  have hu := u.toNat_lt
  unfold NoControl quoteUnit
  split_ifs with h1 h2 h3 h4 h5 h6 h7 h8
  · simp
  · simp
  · simp
  · simp
  · simp
  · simp
  · simp
  · have e1 := hex (u.toNat / 4096) (by omega)
    have e2 := hex (u.toNat / 256 % 16) (by omega)
    have e3 := hex (u.toNat / 16 % 16) (by omega)
    have e4 := hex (u.toNat % 16) (by omega)
    simp [unicodeEscape, e1, e2, e3, e4]
  · rw [Bool.or_eq_true, Bool.or_eq_true, not_or, not_or] at h8
    have h32 : ¬ u.toNat < 32 := by simpa using h8.1.1
    simpa using h32

theorem noControl_quoteBody (s : JsString) : NoControl (quoteBody s) := by
  induction s using quoteBody.induct with
  | case1 => exact fun u hu => absurd hu List.not_mem_nil
  | case2 u => exact noControl_quoteUnit u
  | case3 u v rest h ih =>
    simp only [quoteBody, h, if_true]
    rw [Bool.and_eq_true] at h
    have hu : 32 ≤ u.toNat := toNat_of_surrogate (.inl h.1)
    have hv : 32 ≤ v.toNat := toNat_of_surrogate (.inr h.2)
    have hpair : NoControl [u, v] := by simp [NoControl, hu, hv]
    exact hpair.append ih
  | case4 u v rest h ih =>
    simp only [quoteBody, h, Bool.false_eq_true, if_false]
    exact (noControl_quoteUnit u).append ih

theorem noControl_quote (s : JsString) : NoControl (quote s) := by
  have h34 : NoControl [34] := by simp [NoControl]
  exact h34.append ((noControl_quoteBody s).append h34)

theorem noControl_numberToString (d : Decimal) : NoControl (numberToString d) := by
  intro u hu
  rcases isNumeral_numberToString d u hu with h | rfl | rfl | rfl | rfl
  · exact le_trans (by decide) h.1
  all_goals decide

/-- The fixed texts of the grammar. -/
theorem noControl_of_all {s : JsString} (h : s.all (fun u => decide (32 ≤ u.toNat)) = true) : NoControl s :=
  fun u hu => by simpa using List.all_eq_true.mp h u hu

mutual

theorem noControl_stringify (a : Json) : NoControl (stringify a) := by
  match a with
  | .null => exact noControl_of_all (by decide)
  | .bool true => exact noControl_of_all (by decide)
  | .bool false => exact noControl_of_all (by decide)
  | .num d => exact noControl_numberToString d
  | .str s => exact noControl_quote s
  | .arr [] => exact noControl_of_all (by decide)
  | .arr (x :: xs) =>
    rw [stringify]
    exact ((noControl_of_all (by decide)).append (noControl_stringify x)).append (noControl_stringifyItems xs)
  | .obj [] => exact noControl_of_all (by decide)
  | .obj ((k, x) :: o) =>
    rw [stringify]
    exact ((((noControl_of_all (by decide)).append (noControl_quote k)).append (noControl_of_all (by decide))).append
      (noControl_stringify x)).append (noControl_stringifyMembers o)

theorem noControl_stringifyItems (xs : List Json) : NoControl (stringifyItems xs) := by
  match xs with
  | [] => exact noControl_of_all (by decide)
  | x :: xs =>
    rw [stringifyItems]
    exact ((noControl_of_all (by decide)).append (noControl_stringify x)).append (noControl_stringifyItems xs)

theorem noControl_stringifyMembers (o : List (JsString × Json)) : NoControl (stringifyMembers o) := by
  match o with
  | [] => exact noControl_of_all (by decide)
  | (k, x) :: o =>
    rw [stringifyMembers]
    exact ((((noControl_of_all (by decide)).append (noControl_quote k)).append (noControl_of_all (by decide))).append
      (noControl_stringify x)).append (noControl_stringifyMembers o)

end

/-! ### Not blank -/

theorem isSpace_numeral {u : UInt16} (h : IsNumeral u) : isSpace u = false := by
  have hspace : ∀ n : ℕ, 33 ≤ n → n < 160 → isSpace n.toUInt16 = false := by decide +kernel
  have hbounds : 33 ≤ u.toNat ∧ u.toNat < 160 := by
    rcases h with ⟨h1, h2⟩ | rfl | rfl | rfl | rfl
    · omega
    all_goals decide
  have hu := hspace u.toNat hbounds.1 hbounds.2
  rwa [show u.toNat.toUInt16 = u from UInt16.ofNat_toNat] at hu

theorem trim_stringify_ne_nil (a : Json) : trim (stringify a) ≠ [] := by
  obtain ⟨u, hu, hspace⟩ : ∃ u ∈ stringify a, isSpace u = false := by
    cases a with
    | null => exact ⟨110, by decide, by decide⟩
    | bool b => cases b <;> exact ⟨101, by decide, by decide⟩
    | num d =>
      obtain ⟨u, t, hu, hnumeral⟩ := numberToString_head d
      exact ⟨u, by simp [stringify, hu], isSpace_numeral hnumeral⟩
    | str s => exact ⟨34, by simp [stringify, quote], by decide⟩
    | arr xs =>
      refine ⟨91, ?_, by decide⟩
      cases xs with
      | nil => decide
      | cons x xs =>
        rw [stringify, List.append_assoc]
        exact List.mem_append_left _ (by decide)
    | obj o =>
      refine ⟨123, ?_, by decide⟩
      rcases o with _ | ⟨⟨k, x⟩, o⟩
      · decide
      · rw [stringify, List.append_assoc, List.append_assoc, List.append_assoc]
        exact List.mem_append_left _ (by decide)
  exact trim_ne_nil hu hspace

/-! ### The end of a text -/

/-- A unit that can be the last of a value. -/
def closing (u : UInt16) : Bool := u == 34 || u == 93 || u == 125 || u == 108 || u == 101 || numeralUnit u

/-- `r` is what is left of `s` after a value. -/
def Closes (s r : JsString) : Prop := ∃ c u, s = c ++ u :: r ∧ closing u = true

section Closing

variable {N : Numerals} {s t r : JsString}

theorem Closes.append (c : JsString) (h : Closes s r) : Closes (c ++ s) r := by
  obtain ⟨c', u, rfl, hu⟩ := h
  exact ⟨c ++ c', u, by rw [List.append_assoc], hu⟩

theorem Closes.skip (h : Closes (skipSpace s) r) : Closes s r := by
  have hs : s.takeWhile jsonSpace ++ skipSpace s = s := List.takeWhile_append_dropWhile
  rw [← hs]
  exact h.append _

theorem Closes.trans {r' : JsString} (h : Closes s r) (h' : Closes r r') : Closes s r' := by
  obtain ⟨c, u, rfl, -⟩ := h
  exact (h'.append [u]).append c

theorem closes_cons {u : UInt16} (hu : closing u = true) : Closes (u :: r) r := ⟨[], u, rfl, hu⟩

theorem parseString_closes (h : parseString s = some (t, r)) : Closes s r := by
  fun_induction parseString s generalizing t r with
  | case1 => cases h
  | case2 r' =>
    cases h
    exact closes_cons (by decide)
  | case3 => cases h
  | case4 a b c d r' v hv ih =>
    obtain ⟨⟨t', r''⟩, hp, heq⟩ := Option.map_eq_some_iff.mp h
    cases heq
    exact (ih hp).append [92, 117, a, b, c, d]
  | case5 => cases h
  | case6 u r' hr' v hv ih =>
    obtain ⟨⟨t', r''⟩, hp, heq⟩ := Option.map_eq_some_iff.mp h
    cases heq
    exact (ih hp).append [92, u]
  | case7 => cases h
  | case8 u r' h1 h2 h3 h4 ih =>
    obtain ⟨⟨t', r''⟩, hp, heq⟩ := Option.map_eq_some_iff.mp h
    cases heq
    exact (ih hp).append [u]

theorem parseWord_closes {v : Json} (h : parseWord s = some (v, r)) : Closes s r := by
  unfold parseWord at h
  split at h
  · cases h
    exact ⟨[110, 117, 108], 108, rfl, by decide⟩
  · cases h
    exact ⟨[116, 114, 117], 101, rfl, by decide⟩
  · cases h
    exact ⟨[102, 97, 108, 115], 101, rfl, by decide⟩
  · cases h

theorem parseNumber_closes {v : Json} (h : parseNumber N s = some (v, r)) : Closes s r := by
  rw [parseNumber] at h
  split at h
  · rename_i hvalid
    cases h
    have hne : s.takeWhile numeralUnit ≠ [] := by
      intro hnil
      rw [hnil] at hvalid
      exact absurd hvalid (by decide)
    refine ⟨(s.takeWhile numeralUnit).dropLast, (s.takeWhile numeralUnit).getLast hne, ?_, ?_⟩
    · rw [List.append_cons, List.dropLast_append_getLast, List.takeWhile_append_dropWhile]
    · have hlast := List.mem_takeWhile_imp (List.getLast_mem hne)
      simp [closing, hlast]
  · cases h

mutual

/-- **A value is closed** by its last unit. -/
theorem parseValue_closes {n : ℕ} {s r : JsString} {v : Json} (h : parseValue N n s = some (v, r)) : Closes s r := by
  match n with
  | 0 => cases h
  | n + 1 =>
    have hne : skipSpace s ≠ [] := by
      intro hnil
      rw [parseValue, hnil] at h
      cases h
    obtain ⟨u, t, ht⟩ := List.exists_cons_of_ne_nil hne
    refine Closes.skip ?_
    rw [ht]
    by_cases h34 : u = 34
    · subst h34
      rw [parseValue_str ht] at h
      obtain ⟨p, hp, heq⟩ := Option.map_eq_some_iff.mp h
      cases heq
      exact (parseString_closes hp).append [34]
    by_cases h91 : u = 91
    · subst h91
      refine Closes.append [91] (Closes.skip ?_)
      by_cases hend : (skipSpace t).head? = some 93
      · obtain ⟨r', hr'⟩ := List.head?_eq_some_iff.mp hend
        rw [parseValue_arr_nil ht hr'] at h
        cases h
        rw [hr']
        exact closes_cons (by decide)
      · rw [parseValue_arr ht hend] at h
        obtain ⟨p, hp, heq⟩ := Option.map_eq_some_iff.mp h
        cases heq
        exact parseItems_closes hp
    by_cases h123 : u = 123
    · subst h123
      refine Closes.append [123] (Closes.skip ?_)
      by_cases hend : (skipSpace t).head? = some 125
      · obtain ⟨r', hr'⟩ := List.head?_eq_some_iff.mp hend
        rw [parseValue_obj_nil ht hr'] at h
        cases h
        rw [hr']
        exact closes_cons (by decide)
      · rw [parseValue_obj ht hend] at h
        obtain ⟨p, hp, heq⟩ := Option.map_eq_some_iff.mp h
        cases heq
        exact parseMembers_closes hp
    · rw [parseValue_other ht h34 h91 h123] at h
      rcases Option.or_eq_some_iff.mp h with hword | ⟨-, hnumber⟩
      · exact parseWord_closes hword
      · exact parseNumber_closes hnumber
termination_by n

theorem parseItems_closes {n : ℕ} {s r : JsString} {xs : List Json} (h : parseItems N n s = some (xs, r)) : Closes s r := by
  match n with
  | 0 => cases h
  | n + 1 =>
    rw [parseItems] at h
    obtain ⟨⟨x, r₁⟩, hx, h⟩ := Option.bind_eq_some_iff.mp h
    refine (parseValue_closes hx).trans (Closes.skip ?_)
    dsimp only at h
    split at h
    · rename_i r₂ hr₂
      obtain ⟨p, hp, heq⟩ := Option.map_eq_some_iff.mp h
      cases heq
      rw [hr₂]
      exact (parseItems_closes hp).append [44]
    · rename_i r₂ hr₂
      cases h
      rw [hr₂]
      exact closes_cons (by decide)
    · cases h
termination_by n

theorem parseMembers_closes {n : ℕ} {s r : JsString} {o : List (JsString × Json)} (h : parseMembers N n s = some (o, r)) :
    Closes s r := by
  match n with
  | 0 => cases h
  | n + 1 =>
    rw [parseMembers] at h
    refine Closes.skip ?_
    split at h
    · rename_i r₀ hr₀
      obtain ⟨⟨k, r₁⟩, hk, h⟩ := Option.bind_eq_some_iff.mp h
      rw [hr₀]
      refine Closes.append [34] ((parseString_closes hk).trans (Closes.skip ?_))
      dsimp only at h
      split at h
      · rename_i r₂ hr₂
        obtain ⟨⟨x, r₃⟩, hx, h⟩ := Option.bind_eq_some_iff.mp h
        rw [hr₂]
        refine Closes.append [58] ((parseValue_closes hx).trans (Closes.skip ?_))
        dsimp only at h
        split at h
        · rename_i r₄ hr₄
          obtain ⟨p, hp, heq⟩ := Option.map_eq_some_iff.mp h
          cases heq
          rw [hr₄]
          exact (parseMembers_closes hp).append [44]
        · rename_i r₄ hr₄
          cases h
          rw [hr₄]
          exact closes_cons (by decide)
        · cases h
      · cases h
    · cases h
termination_by n

end

/-- **A text that is read ends with a closing unit or with white space.** -/
theorem parse_eq_none_of_last {u : UInt16} (hclosing : closing u = false) (hspace : jsonSpace u = false) (s : JsString) :
    parse N (s ++ [u]) = none := by
  cases hs : parse N (s ++ [u]) with
  | none => rfl
  | some v =>
    exfalso
    rw [parse] at hs
    split at hs
    · rename_i v' r hvalue
      split at hs
      · rename_i hr
        obtain ⟨c, w, hc, hw⟩ := parseValue_closes hvalue
        rcases List.eq_nil_or_concat' r with rfl | ⟨r', w', rfl⟩
        · have hlast := (List.append_inj' hc rfl).2
          rw [List.cons.injEq] at hlast
          rw [hlast.1, hw] at hclosing
          cases hclosing
        · rw [← List.cons_append, ← List.append_assoc] at hc
          have hlast := (List.append_inj' hc rfl).2
          rw [List.cons.injEq] at hlast
          rw [← hlast.1] at hr
          have hnil : skipSpace (r' ++ [u]) = [] := List.isEmpty_iff.mp hr
          have hall := List.dropWhile_eq_nil_iff.mp hnil u (by simp)
          rw [hspace] at hall
          cases hall
      · cases hs
    · cases hs

end Closing

end Wanfw.Js
