import Wanfw.Js.Regex

/-!
# Quoted values

`new RegExp(k + '"([^"]*)"', "i")` looks for a value in quotes behind a key. It knows
nothing of attributes: the key may also be the end of a value that stands before it.
Cut at its quotes, a string is a list of pieces, and the expression finds the first
piece that ends with the key and has a closing quote behind the next (`exec_quoted`).
-/

namespace Wanfw.Js

/-- The string ends with `t`, up to the case of letters. -/
def endsWithI (s t : JsString) : Bool := endsWith (s.map Re.lower) (t.map Re.lower)

/-- The value behind `k`, for the pieces of a string between its quotes. -/
def quotedValue (k : JsString) : List JsString → Option JsString
  | s :: v :: w :: rest => if endsWithI s k then some v else quotedValue k (v :: w :: rest)
  | _ => none

theorem mem_of_quotedValue {k v : JsString} {pieces : List JsString} (h : quotedValue k pieces = some v) : v ∈ pieces := by
  fun_induction quotedValue k pieces with
  | case1 s v' w rest hend =>
    cases h
    simp
  | case2 s v' w rest hend ih => exact List.mem_cons_of_mem _ (ih h)
  | case3 => cases h

/-- What stands before the first `c` is determined by the string. -/
theorem append_cons_inj {x y s t : JsString} {c : UInt16} (hx : c ∉ x) (hy : c ∉ y) (h : x ++ c :: s = y ++ c :: t) :
    x = y ∧ s = t := by
  induction x generalizing y with
  | nil =>
    cases y with
    | nil => exact ⟨rfl, (List.cons.inj h).2⟩
    | cons v y =>
      obtain ⟨rfl, -⟩ := List.cons.inj h
      exact absurd (List.mem_cons_self) hy
  | cons u x ih =>
    cases y with
    | nil =>
      obtain ⟨rfl, -⟩ := List.cons.inj h
      exact absurd (List.mem_cons_self) hx
    | cons v y =>
      rw [List.cons_append, List.cons_append, List.cons.injEq] at h
      obtain ⟨rfl, h⟩ := h
      obtain ⟨rfl, rfl⟩ := ih (fun hc => hx (List.mem_cons_of_mem _ hc)) (fun hc => hy (List.mem_cons_of_mem _ hc)) h
      exact ⟨rfl, rfl⟩

namespace Re

/-- `k"([^"]*)"`, with the flag `i`. -/
def quoted (k : JsString) : Re := .seqs [.litI (k ++ js "\""), .group 1 (.star true (· != 34)), .lit (js "\"")]

section Case

variable {t s : JsString} {start : Bool} {m : Match}

theorem lower_eq_quote {u : UInt16} : lower u = 34 ↔ u = 34 := by
  unfold lower
  split
  · rename_i h
    constructor
    · intro hu
      have := congrArg UInt16.toNat hu
      rw [UInt16.toNat_add] at this
      simp at this
      omega
    · rintro rfl
      revert h
      decide
  · rfl

theorem not_mem_map_lower (h : 34 ∉ s) : (34 : UInt16) ∉ s.map lower := by
  intro hmem
  obtain ⟨u, hu, hl⟩ := List.mem_map.mp hmem
  rw [lower_eq_quote.mp hl] at hu
  exact h hu

theorem mem_run_litI :
    m ∈ (litI t).run start s ↔ s = m.text ++ m.rest ∧ m.text.map lower = t.map lower ∧ m.groups = [] := by
  obtain ⟨text, rest, groups⟩ := m
  induction t generalizing start s text rest groups with
  | nil =>
    rw [show litI [] = .eps from rfl, run, List.mem_singleton]
    simp only [Match.mk.injEq, List.map_nil, List.map_eq_nil_iff]
    constructor
    · rintro ⟨rfl, rfl, rfl⟩
      exact ⟨rfl, rfl, rfl⟩
    · rintro ⟨rfl, rfl, rfl⟩
      exact ⟨rfl, rfl, rfl⟩
  | cons c t ih =>
    rw [show litI (c :: t) = .seq (chrI c) (litI t) from rfl, mem_run_seq]
    constructor
    · rintro ⟨m₁, h₁, ⟨text₂, rest₂, groups₂⟩, h₂, heq⟩
      obtain ⟨u, hu, rfl, hm₁⟩ := mem_run_cls.mp h₁
      obtain ⟨hrest, htext, rfl⟩ := (ih text₂ rest₂ groups₂).mp h₂
      rw [hm₁] at heq hrest
      obtain ⟨rfl, rfl, rfl⟩ := Match.mk.inj heq
      simp only at hrest htext
      refine ⟨by rw [hm₁, hrest]; simp, ?_, rfl⟩
      simpa [htext] using hu
    · rintro ⟨rfl, htext, rfl⟩
      cases text with
      | nil => cases htext
      | cons u text =>
        rw [List.map_cons, List.map_cons, List.cons.injEq] at htext
        exact ⟨⟨[u], text ++ rest, []⟩, mem_run_cls.mpr ⟨u, by simpa using htext.1, rfl, rfl⟩, ⟨text, rest, []⟩,
          (ih text rest []).mpr ⟨rfl, htext.2, rfl⟩, rfl⟩

theorem anchorless_litI (t : JsString) : (litI t).anchorless = true := by
  induction t with
  | nil => rfl
  | cons u t ih => exact ih

end Case

section Quoted

variable {k s y : JsString} {m : Match}

theorem anchorless_quoted (k : JsString) : (quoted k).anchorless = true := by
  simp [quoted, seqs, anchorless, anchorless_lit, anchorless_litI]

theorem mem_run_quoted :
    m ∈ (quoted k).run false y ↔ ∃ x v, x.map lower = k.map lower ∧ 34 ∉ v ∧ y = x ++ 34 :: (v ++ 34 :: m.rest) ∧
      m = ⟨x ++ 34 :: (v ++ [34]), m.rest, [(1, v)]⟩ := by
  rw [quoted, seqs, seqs, seqs, seqs, mem_run_seq]
  constructor
  · rintro ⟨⟨x', r₁, g₁⟩, h₁, m₂, h, rfl⟩
    obtain ⟨rfl, hx', rfl⟩ := mem_run_litI.mp h₁
    obtain ⟨x, q, rfl, hx, hq⟩ := List.map_eq_append_iff.mp (hx'.trans List.map_append)
    obtain ⟨q, z, rfl, hquote, hz⟩ := List.map_eq_cons_iff.mp (hq.trans (show _ = [(34 : UInt16)] by decide))
    obtain rfl := List.map_eq_nil_iff.mp hz
    obtain rfl := lower_eq_quote.mp hquote
    obtain ⟨m₃, h₃, m₄, h₄, rfl⟩ := mem_run_seq.mp h
    obtain ⟨⟨v, r₃, g₃⟩, hstar, rfl⟩ := mem_run_group.mp h₃
    obtain ⟨rfl, rfl, hv⟩ := mem_run_star.mp hstar
    rw [run_seq_eps] at h₄
    obtain ⟨hr, hm₄⟩ := mem_run_lit.mp h₄
    refine ⟨x, v, hx, fun hmem => by simpa using hv 34 hmem, ?_, ?_⟩
    · simp only [Match.capture] at hr ⊢
      rw [hr]
      simp [Match.append, js, encode, utf16]
    · rw [hm₄]
      simp [Match.append, Match.capture, js, encode, utf16]
  · rintro ⟨x, v, hx, hv, hy, hm⟩
    rw [hm]
    refine ⟨⟨x ++ [34], v ++ 34 :: m.rest, []⟩, mem_run_litI.mpr ⟨by rw [hy]; simp, ?_, rfl⟩,
      ⟨v ++ [34], m.rest, [(1, v)]⟩, mem_run_seq.mpr ⟨⟨v, 34 :: m.rest, [(1, v)]⟩, ?_, ⟨[34], m.rest, []⟩, ?_, rfl⟩, ?_⟩
    · rw [List.map_append, List.map_append, hx]
      rfl
    · refine mem_run_group.mpr ⟨⟨v, 34 :: m.rest, []⟩, mem_run_star.mpr ⟨rfl, rfl, fun u hu => ?_⟩, rfl⟩
      rw [bne_iff_ne]
      rintro rfl
      exact hv hu
    · rw [run_seq_eps]
      exact mem_run_lit.mpr ⟨rfl, rfl⟩
    · simp [Match.append]

/-- The key ends where the first quote stands. -/
theorem head?_run_quoted {x v z : JsString} (hk : 34 ∉ k) (hx : x.map lower = k.map lower) (hv : 34 ∉ v) :
    ((quoted k).run false (x ++ 34 :: (v ++ 34 :: z))).head? = some ⟨x ++ 34 :: (v ++ [34]), z, [(1, v)]⟩ := by
  have hmem : (⟨x ++ 34 :: (v ++ [34]), z, [(1, v)]⟩ : Match) ∈ (quoted k).run false (x ++ 34 :: (v ++ 34 :: z)) :=
    mem_run_quoted.mpr ⟨x, v, hx, hv, rfl, rfl⟩
  have hnot : ∀ w : JsString, w.map lower = k.map lower → 34 ∉ w := by
    intro w hw hmem
    apply not_mem_map_lower hk
    rw [← hw]
    exact List.mem_map.mpr ⟨34, hmem, by decide⟩
  cases hrun : (quoted k).run false (x ++ 34 :: (v ++ 34 :: z)) with
  | nil => rw [hrun] at hmem; cases hmem
  | cons m ms =>
    obtain ⟨x', v', hx', hv', hy, hm⟩ := mem_run_quoted.mp (hrun ▸ List.mem_cons_self : m ∈ _)
    obtain ⟨rfl, h⟩ := append_cons_inj (hnot x hx) (hnot x' hx') hy
    obtain ⟨rfl, hz⟩ := append_cons_inj hv hv' h
    rw [List.head?_cons, hm, ← hz]

/-- Nothing is found where there are fewer than two quotes. -/
theorem search_quoted_eq_none {x s : JsString} {start : Bool} (hx : 34 ∉ x) (hs : 34 ∉ s) :
    (quoted k).search start (x ++ 34 :: s) = none := by
  rw [search_eq_none_iff (anchorless_quoted k)]
  intro a b hab
  by_contra hrun
  obtain ⟨m, hm⟩ := List.exists_mem_of_ne_nil _ hrun
  obtain ⟨x', v, -, -, rfl, -⟩ := mem_run_quoted.mp hm
  have hcount := congrArg (List.count 34) hab
  simp only [List.count_append, List.count_cons_self, List.count_eq_zero.mpr hx, List.count_eq_zero.mpr hs] at hcount
  omega

/-- The search skips a piece that does not end with the key. -/
theorem search_quoted_skip {x s : JsString} {start : Bool} (hk : 34 ∉ k) (hx : 34 ∉ x) (hend : endsWithI x k = false) :
    ((quoted k).search start (x ++ 34 :: s)).map (·.2) = ((quoted k).search false s).map (·.2) := by
  rw [show x ++ 34 :: s = (x ++ [34]) ++ s by simp, search_append (anchorless_quoted k), Option.map_map]
  · rfl
  · intro a b hab hb
    by_contra hrun
    obtain ⟨m, hm⟩ := List.exists_mem_of_ne_nil _ hrun
    obtain ⟨x', v, hx', -, hy, -⟩ := mem_run_quoted.mp hm
    have hx'q : 34 ∉ x' := by
      intro hmem
      apply not_mem_map_lower hk
      rw [← hx']
      exact List.mem_map.mpr ⟨34, hmem, by decide⟩
    obtain ⟨b', c, rfl⟩ := List.eq_nil_or_concat b |>.resolve_left hb
    rw [List.concat_eq_append, ← List.append_assoc] at hab
    have hxa := List.append_inj_left' hab rfl
    cases List.append_inj_right' hab rfl
    have hb' : 34 ∉ b' := fun hmem => hx (hxa ▸ List.mem_append_right _ hmem)
    rw [List.concat_eq_append, List.append_assoc, List.singleton_append] at hy
    obtain ⟨rfl, -⟩ := append_cons_inj hb' hx'q hy
    rw [← Bool.not_eq_true] at hend
    apply hend
    rw [endsWithI, endsWith_iff]
    exact ⟨a.map lower, by rw [hxa, List.map_append, hx']⟩

/-- The search ends behind the first piece that ends with the key. -/
theorem search_quoted_found {x v z : JsString} {start : Bool} (hk : 34 ∉ k) (hx : 34 ∉ x) (hv : 34 ∉ v)
    (hend : endsWithI x k = true) :
    (((quoted k).search start (x ++ 34 :: (v ++ 34 :: z))).map (·.2)).bind (·.group 1) = some v := by
  obtain ⟨t, ht⟩ := endsWith_iff.mp hend
  obtain ⟨a, b, rfl, -, hb⟩ := List.map_eq_append_iff.mp ht
  rw [List.append_assoc, search_append (anchorless_quoted k)]
  · have hhead := head?_run_quoted (z := z) hk hb hv
    have hsearch : (quoted k).search false (b ++ 34 :: (v ++ 34 :: z)) = some ([], ⟨b ++ 34 :: (v ++ [34]), z, [(1, v)]⟩) := by
      cases hbz : b ++ 34 :: (v ++ 34 :: z) with
      | nil => simp at hbz
      | cons u r => rw [search, ← hbz, hhead]
    rw [hsearch]
    rfl
  · -- the key would have to reach over the first quote
    intro a' y hay hy
    by_contra hrun
    obtain ⟨m, hm⟩ := List.exists_mem_of_ne_nil _ hrun
    obtain ⟨x', v', hx', -, heq, -⟩ := mem_run_quoted.mp hm
    have hx'q : 34 ∉ x' := by
      intro hmem
      apply not_mem_map_lower hk
      rw [← hx']
      exact List.mem_map.mpr ⟨34, hmem, by decide⟩
    have hyb : 34 ∉ y ++ b := by
      intro hmem
      apply hx
      rw [hay]
      simp only [List.mem_append] at hmem ⊢
      tauto
    rw [← List.append_assoc] at heq
    obtain ⟨rfl, -⟩ := append_cons_inj hyb hx'q heq
    have hlen := congrArg List.length (hx'.trans hb.symm)
    simp only [List.length_map, List.length_append] at hlen
    exact hy (List.length_eq_zero_iff.mp (by omega))

/-- **What is found behind a key.** -/
theorem exec_quoted (hk : 34 ∉ k) (s : JsString) :
    ((quoted k).exec s).bind (·.group 1) = quotedValue k (split s 34) := by
  rw [exec]
  generalize true = start
  induction hn : s.length using Nat.strong_induction_on generalizing s start with
  | _ n ih =>
    by_cases hs : 34 ∈ s
    · obtain ⟨x, r, rfl, hx⟩ := List.eq_append_cons_of_mem hs
      rw [split_append_cons hx]
      by_cases hr : 34 ∈ r
      · obtain ⟨v, z, rfl, hv⟩ := List.eq_append_cons_of_mem hr
        rw [split_append_cons hv]
        cases hz : split z 34 with
        | nil => exact absurd hz (List.splitOn_ne_nil 34 z)
        | cons w rest =>
          rw [quotedValue]
          split
          · rename_i hend
            exact search_quoted_found hk hx hv hend
          · rename_i hend
            have hlt : (v ++ 34 :: z).length < n := by
              simp only [List.length_append, List.length_cons] at hn ⊢
              omega
            rw [search_quoted_skip hk hx (by simpa using hend),
              ih (v ++ 34 :: z).length hlt _ false rfl, split_append_cons hv, hz]
      · rw [search_quoted_eq_none hx hr, split_of_not_mem hr]
        rfl
    · rw [split_of_not_mem hs]
      have hnone : (quoted k).search start s = none := by
        rw [search_eq_none_iff (anchorless_quoted k)]
        intro a b hab
        by_contra hrun
        obtain ⟨m, hm⟩ := List.exists_mem_of_ne_nil _ hrun
        obtain ⟨x', v, -, -, rfl, -⟩ := mem_run_quoted.mp hm
        exact hs (by rw [hab]; simp)
      rw [hnone]
      rfl

end Quoted

end Re

end Wanfw.Js
