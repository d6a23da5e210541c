import Mathlib.Data.List.Nodup

/-!
# Tables with a primary key

The rows of a table, in the order in which they came in, no two of them with the same
key. `upsert` puts a row in the place of the one with its key, or behind all others;
`update` changes the rows that satisfy a condition and leaves their keys alone. Both
say what the table has afterwards: `mem_upsert`, `mem_update`.

A loop that changes the rows of a list one after the other is followed with `Pending`: what
the loop is for holds of every row that is not still in the list.
-/

namespace Wanfw.Store

/-- A table whose primary key is `key`. -/
structure Table {ρ κ : Type} (key : ρ → κ) where
  rows : List ρ
  nodup : (rows.map key).Nodup

namespace Table

variable {ρ κ : Type} {key : ρ → κ}

/-- No rows. -/
def empty : Table key := ⟨[], by simp⟩

/-- `r ∈ t`: the table has this row. -/
instance : Membership ρ (Table key) := ⟨fun t r => r ∈ t.rows⟩

theorem mem_iff {t : Table key} {r : ρ} : r ∈ t ↔ r ∈ t.rows := Iff.rfl

/-- A row is determined by its key. -/
theorem eq_of_key_eq {t : Table key} {r r' : ρ} (hr : r ∈ t) (hr' : r' ∈ t) (h : key r = key r') : r = r' :=
  List.inj_on_of_nodup_map t.nodup hr hr' h

/-- Take rows out. -/
def delete (t : Table key) (p : ρ → Bool) : Table key :=
  ⟨t.rows.filter fun r => !p r, t.nodup.sublist (List.filter_sublist.map key)⟩

theorem mem_delete {t : Table key} {p : ρ → Bool} {r : ρ} : r ∈ t.delete p ↔ r ∈ t ∧ p r = false := by
  change r ∈ t.rows.filter _ ↔ r ∈ t.rows ∧ _
  rw [List.mem_filter, Bool.not_eq_true']

section Upsert

variable [DecidableEq κ]

/-- The row with a key. -/
def lookup (t : Table key) (k : κ) : Option ρ := t.rows.find? fun r => key r = k

theorem lookup_eq_some {t : Table key} {k : κ} {r : ρ} : t.lookup k = some r ↔ r ∈ t ∧ key r = k := by
  constructor
  · intro h
    have hkey := List.find?_some h
    exact ⟨List.mem_of_find?_eq_some h, of_decide_eq_true hkey⟩
  · rintro ⟨hr, rfl⟩
    cases h : t.lookup (key r) with
    | none => simpa using List.find?_eq_none.mp h r hr
    | some r' =>
      have hkey := List.find?_some h
      rw [eq_of_key_eq (List.mem_of_find?_eq_some h) hr (of_decide_eq_true hkey)]

/-- Two tables with the same rows under a key. -/
theorem lookup_congr {t t' : Table key} {k : κ} (h : ∀ r, key r = k → (r ∈ t ↔ r ∈ t')) : t.lookup k = t'.lookup k := by
  refine Option.ext fun r => ?_
  rw [lookup_eq_some, lookup_eq_some]
  exact and_congr_left (h r)

/-- The rows after an upsert. -/
def upsertRows (key : ρ → κ) (rows : List ρ) (r : ρ) : List ρ :=
  if key r ∈ rows.map key then rows.map fun x => if key x = key r then r else x else rows ++ [r]

theorem nodup_upsertRows {rows : List ρ} (h : (rows.map key).Nodup) (r : ρ) :
    ((upsertRows key rows r).map key).Nodup := by
  unfold upsertRows
  split
  · have hkeys : (rows.map fun x => if key x = key r then r else x).map key = rows.map key := by
      rw [List.map_map]
      refine List.map_congr_left fun x _ => ?_
      simp only [Function.comp_apply]
      split
      · exact Eq.symm (by assumption)
      · rfl
    rwa [hkeys]
  · rename_i hnew
    rw [List.map_append, List.nodup_append]
    refine ⟨h, by simp, fun k hk k' hk' heq => ?_⟩
    rw [List.map_singleton, List.mem_singleton] at hk'
    exact hnew (hk' ▸ heq ▸ hk)

/-- Put a row in the place of the one with its key, or behind all others. -/
def upsert (t : Table key) (r : ρ) : Table key := ⟨upsertRows key t.rows r, nodup_upsertRows t.nodup r⟩

theorem mem_upsert {t : Table key} {r x : ρ} : x ∈ t.upsert r ↔ x = r ∨ x ∈ t ∧ key x ≠ key r := by
  change x ∈ upsertRows key t.rows r ↔ x = r ∨ x ∈ t.rows ∧ key x ≠ key r
  unfold upsertRows
  split
  · rename_i hold
    rw [List.mem_map]
    constructor
    · rintro ⟨y, hy, rfl⟩
      split
      · exact .inl rfl
      · exact .inr ⟨hy, by assumption⟩
    · rintro (rfl | ⟨hx, hne⟩)
      · obtain ⟨y, hy, hkey⟩ := List.mem_map.mp hold
        exact ⟨y, hy, if_pos hkey⟩
      · exact ⟨x, hx, if_neg hne⟩
  · rename_i hnew
    rw [List.mem_append, List.mem_singleton]
    constructor
    · rintro (hx | rfl)
      · exact .inr ⟨hx, fun hkey => hnew (hkey ▸ List.mem_map_of_mem hx)⟩
      · exact .inl rfl
    · rintro (rfl | ⟨hx, -⟩)
      · exact .inr rfl
      · exact .inl hx

theorem lookup_upsert (t : Table key) (r : ρ) : (t.upsert r).lookup (key r) = some r :=
  lookup_eq_some.mpr ⟨mem_upsert.mpr (.inl rfl), rfl⟩

theorem lookup_upsert_of_ne {t : Table key} {k : κ} {r : ρ} (h : key r ≠ k) : (t.upsert r).lookup k = t.lookup k := by
  refine lookup_congr fun x hx => ?_
  rw [mem_upsert]
  constructor
  · rintro (rfl | ⟨hmem, -⟩)
    · exact absurd hx h
    · exact hmem
  · exact fun hmem => .inr ⟨hmem, fun heq => h (heq.symm.trans hx)⟩

end Upsert

/-- Change the rows that satisfy a condition. -/
def update (t : Table key) (p : ρ → Bool) (f : ρ → ρ) (hf : ∀ r, key (f r) = key r) : Table key where
  rows := t.rows.map fun r => if p r then f r else r
  nodup := by
    have hkeys : (t.rows.map fun r => if p r then f r else r).map key = t.rows.map key := by
      rw [List.map_map]
      refine List.map_congr_left fun x _ => ?_
      simp only [Function.comp_apply]
      split
      · exact hf x
      · rfl
    rw [hkeys]
    exact t.nodup

theorem mem_update {t : Table key} {p : ρ → Bool} {f : ρ → ρ} {hf : ∀ r, key (f r) = key r} {x : ρ} :
    x ∈ t.update p f hf ↔ ∃ y ∈ t, x = if p y then f y else y := by
  change x ∈ t.rows.map _ ↔ ∃ y ∈ t.rows, _
  rw [List.mem_map]
  exact ⟨fun ⟨y, hy, h⟩ => ⟨y, hy, h.symm⟩, fun ⟨y, hy, h⟩ => ⟨y, hy, h.symm⟩⟩

theorem lookup_update [DecidableEq κ] (t : Table key) (p : ρ → Bool) {f : ρ → ρ} (hf : ∀ r, key (f r) = key r) (k : κ) :
    (t.update p f hf).lookup k = (t.lookup k).map fun r => if p r then f r else r := by
  have hkey : ∀ r, key (if p r then f r else r) = key r := by
    intro r
    split
    · exact hf r
    · rfl
  unfold lookup update
  rw [List.find?_map]
  simp only [Function.comp_def, hkey]

/-! ### Working off a list of rows -/

/-- The rows that satisfy `live` satisfy `P`, but for those of a list that are yet to be changed. -/
structure Pending (live P : ρ → Prop) (t : Table key) (todo : List ρ) : Prop where
  nodup : (todo.map key).Nodup
  mem : ∀ r ∈ todo, r ∈ t
  rest : ∀ x ∈ t, live x → P x ∨ x ∈ todo

section Pending

variable [DecidableEq κ] {live P : ρ → Prop} {t : Table key} {todo : List ρ} {r : ρ}

theorem Pending.update (h : Pending live P t (r :: todo)) {f : ρ → ρ} (hf : ∀ x, key (f x) = key x) (hr : P (f r)) :
    Pending live P (t.update (fun x => key x = key r) f hf) todo := by
  obtain ⟨hnodup, hmem, hrest⟩ := h
  rw [List.map_cons, List.nodup_cons] at hnodup
  refine ⟨hnodup.2, fun x hx => mem_update.mpr ⟨x, hmem x (by simp [hx]), ?_⟩, fun x hx hlive => ?_⟩
  · have hkey : key x ≠ key r := fun hkey => hnodup.1 (hkey ▸ List.mem_map_of_mem hx)
    rw [if_neg (by simpa using hkey)]
  · obtain ⟨y, hy, rfl⟩ := mem_update.mp hx
    by_cases hkey : key y = key r
    · obtain rfl := eq_of_key_eq hy (hmem r (by simp)) hkey
      simp [hr]
    · have hne : y ≠ r := fun h => hkey (by rw [h])
      simp only [hkey, decide_false, Bool.false_eq_true, if_false] at hlive ⊢
      rcases hrest y hy hlive with hP | hmem
      · exact .inl hP
      · exact .inr ((List.mem_cons.mp hmem).resolve_left hne)

end Pending

end Table

end Wanfw.Store
