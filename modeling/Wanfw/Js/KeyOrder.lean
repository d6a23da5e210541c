import Wanfw.Js.Json

/-!
# The order of keys

An object that is filled by assignments enumerates its keys in an order of its own:
array indices first, by value, then the other keys as they were added. Two objects
filled with the same entries have the same keys in the same order exactly when the
keys that are no array indices were added in the same order (`keys_fill_eq_iff`).
-/

namespace Wanfw.Js

/-- The keys that are no array indices. -/
def named (ks : List JsString) : List JsString := ks.filter fun k => (arrayIndex k).isNone

/-- The keys that an assignment makes own properties. -/
def assignable (ks : List JsString) : List JsString := ks.filter fun k => decide (k ≠ js "__proto__")

/-- Array indices by value, and before the other keys. -/
def InOrder (ks : List JsString) : Prop := ks.Pairwise fun k k' => goesBefore k' k = false

section Order

variable {k k' k'' : JsString} {ks ks' : List JsString}

/-- An array index has one spelling. -/
theorem arrayIndex_inj {i : ℕ} (h : arrayIndex k = some i) (h' : arrayIndex k' = some i) : k = k' := by
  have spelling : ∀ {key : JsString}, arrayIndex key = some i → natToString i = key := by
    intro key hkey
    unfold arrayIndex at hkey
    split at hkey
    · rename_i hcanonical
      cases hkey
      exact hcanonical.1
    · cases hkey
  exact (spelling h).symm.trans (spelling h')

theorem goesBefore_iff : goesBefore k k' = true ↔ ∃ i, arrayIndex k = some i ∧ ∀ j, arrayIndex k' = some j → i < j := by
  unfold goesBefore
  cases arrayIndex k <;> cases arrayIndex k' <;> simp

theorem goesBefore_trans (h : goesBefore k k' = true) (h' : goesBefore k' k'' = true) : goesBefore k k'' = true := by
  obtain ⟨i, hi, hlt⟩ := goesBefore_iff.mp h
  obtain ⟨j, hj, hlt'⟩ := goesBefore_iff.mp h'
  exact goesBefore_iff.mpr ⟨i, hi, fun n hn => (hlt j hj).trans (hlt' n hn)⟩

theorem goesBefore_asymm (h : goesBefore k k' = true) : goesBefore k' k = false := by
  by_contra hback
  obtain ⟨i, hi, hlt⟩ := goesBefore_iff.mp (goesBefore_trans h (by simpa using hback))
  exact lt_irrefl i (hlt i hi)

theorem goesBefore_named (hk : (arrayIndex k).isSome) (hk' : arrayIndex k' = none) : goesBefore k k' = true := by
  obtain ⟨i, hi⟩ := Option.isSome_iff_exists.mp hk
  exact goesBefore_iff.mpr ⟨i, hi, by simp [hk']⟩

/-- Keys in order are array indices and then the others. -/
theorem InOrder.eq_append (h : InOrder ks) : ks = (ks.filter fun k => (arrayIndex k).isSome) ++ named ks := by
  induction ks with
  | nil => rfl
  | cons k ks ih =>
    obtain ⟨hk, hks⟩ := List.pairwise_cons.mp h
    cases hidx : arrayIndex k with
    | some i =>
      have hnamed : named (k :: ks) = named ks := List.filter_cons_of_neg (by simp [hidx])
      rw [hnamed, List.filter_cons_of_pos (by simp [hidx]), List.cons_append, ← ih hks]
    | none =>
      -- after a key that is no index there is no index
      have hnone : ∀ x ∈ ks, arrayIndex x = none := by
        intro x hx
        by_contra hsome
        have hbefore : goesBefore x k = true := goesBefore_named (Option.isSome_iff_ne_none.mpr hsome) hidx
        rw [hk x hx] at hbefore
        cases hbefore
      have hempty : (ks.filter fun k => (arrayIndex k).isSome) = [] :=
        List.filter_eq_nil_iff.mpr fun x hx => by simp [hnone x hx]
      have hall : named ks = ks := List.filter_eq_self.mpr fun x hx => by simp [hnone x hx]
      have hnamed : named (k :: ks) = k :: named ks := List.filter_cons_of_pos (by simp [hidx])
      rw [hnamed, List.filter_cons_of_neg (by simp [hidx]), hempty, hall, List.nil_append]

/-- **Two enumerations of the same keys** agree when they agree on the keys that are no array indices. -/
theorem eq_iff_named (h : InOrder ks) (h' : InOrder ks') (hperm : ks.Perm ks') : ks = ks' ↔ named ks = named ks' := by
  constructor
  · exact congrArg named
  · intro hnamed
    have hindices : (ks.filter fun k => (arrayIndex k).isSome) = ks'.filter fun k => (arrayIndex k).isSome := by
      refine List.Perm.eq_of_pairwise (fun a b ha hb hab hba => ?_)
        (h.filter fun k => (arrayIndex k).isSome) (h'.filter fun k => (arrayIndex k).isSome) (hperm.filter _)
      obtain ⟨i, hi⟩ := Option.isSome_iff_exists.mp (List.mem_filter.mp ha).2
      obtain ⟨j, hj⟩ := Option.isSome_iff_exists.mp (List.mem_filter.mp hb).2
      have hle : i ≤ j := by simpa [goesBefore, hi, hj] using hab
      have hge : j ≤ i := by simpa [goesBefore, hi, hj] using hba
      exact arrayIndex_inj hi ((le_antisymm hle hge) ▸ hj)
    rw [h.eq_append, h'.eq_append, hindices, hnamed]

end Order

namespace Obj

variable {α : Type}

theorem inOrder_insertNew {o : Obj α} (h : InOrder o.keys) (k : JsString) (v : α) : InOrder (insertNew k v o).keys := by
  induction o with
  | nil => exact List.pairwise_singleton _ _
  | cons e o ih =>
    obtain ⟨he, ho⟩ := List.pairwise_cons.mp h
    unfold insertNew
    split
    · rename_i hbefore
      refine List.pairwise_cons.mpr ⟨fun x hx => ?_, h⟩
      rcases List.mem_cons.mp hx with rfl | hx
      · exact goesBefore_asymm hbefore
      · -- what goes before the new key goes before the key that it displaces
        by_contra hx'
        have hxe := goesBefore_trans (by simpa using hx') hbefore
        rw [he x hx] at hxe
        cases hxe
    · rename_i hnot
      refine List.pairwise_cons.mpr ⟨fun x hx => ?_, ih ho⟩
      rcases List.mem_cons.mp ((keys_insertNew_perm k v o).mem_iff.mp hx) with rfl | hx
      · simpa using hnot
      · exact he x hx

theorem inOrder_setOwn {o : Obj α} (h : InOrder o.keys) (k : JsString) (v : α) : InOrder (setOwn o k v).keys := by
  unfold setOwn
  split
  · rwa [keys_map_set]
  · exact inOrder_insertNew h k v

theorem inOrder_assign {o : Obj α} (h : InOrder o.keys) (k : JsString) (v : α) : InOrder (assign o k v).keys := by
  unfold assign
  split
  · exact h
  · exact inOrder_setOwn h k v

theorem inOrder_spread {o : Obj α} (h : InOrder o.keys) (o' : Obj α) : InOrder (spread o o').keys := by
  unfold spread
  induction o' generalizing o with
  | nil => exact h
  | cons e o' ih => exact ih (inOrder_setOwn h e.1 e.2)

/-- A key that goes before none of the others is added at the end. -/
theorem insertNew_last {o : Obj α} {k : JsString} (h : ∀ k' ∈ o.keys, goesBefore k k' = false) (v : α) :
    insertNew k v o = o ++ [(k, v)] := by
  induction o with
  | nil => rfl
  | cons e o ih =>
    obtain ⟨he, ho⟩ := List.forall_mem_cons.mp h
    rw [insertNew, he, if_neg Bool.false_ne_true, ih ho, List.cons_append]

/-- Keys that are in order are defined in this order. -/
theorem spread_append {o o' : Obj α} (h : InOrder (o ++ o').keys) (hnd : (o ++ o').keys.Nodup) : spread o o' = o ++ o' := by
  induction o' generalizing o with
  | nil => simp [spread]
  | cons e o' ih =>
    have hkeys : (o ++ e :: o').keys = o.keys ++ e.1 :: keys o' := by simp [keys]
    have hsplit : o ++ e :: o' = o ++ [e] ++ o' := by simp
    have hbefore : ∀ k' ∈ o.keys, goesBefore e.1 k' = false := fun k' hk' =>
      (List.pairwise_append.mp (hkeys ▸ h)).2.2 k' hk' e.1 List.mem_cons_self
    have hnew : ¬ (o.any fun e' => e'.1 == e.1) = true := by
      rw [mem_keys_iff_any]
      rw [hkeys, List.nodup_append] at hnd
      exact fun hmem => hnd.2.2 e.1 hmem e.1 List.mem_cons_self rfl
    have hset : setOwn o e.1 e.2 = o ++ [e] := by rw [setOwn, if_neg hnew, insertNew_last hbefore]
    rw [hsplit] at h hnd ⊢
    rw [← ih h hnd, ← hset]
    rfl

/-- An object keeps its order. -/
theorem spread_self {o : Obj α} (h : InOrder o.keys) (hnd : o.keys.Nodup) : spread [] o = o := spread_append h hnd

/-- A new key that is no array index comes last. -/
theorem named_insertNew (o : Obj α) (k : JsString) (v : α) :
    named (insertNew k v o).keys = named o.keys ++ named [k] := by
  cases hk : arrayIndex k with
  | none => simp [insertNew_plain hk, keys, named]
  | some i =>
    have hsingle : named [k] = [] := by simp [named, hk]
    rw [hsingle, List.append_nil]
    induction o with
    | nil => exact hsingle
    | cons e o ih =>
      unfold insertNew
      split
      · exact List.filter_cons_of_neg (by simp [hk])
      · have hcons : ∀ rest : Obj α, named (keys (e :: rest)) = named [e.1] ++ named (keys rest) := fun rest =>
          List.filter_append [e.1] (keys rest)
        rw [hcons, hcons, ih]

/-- What an assignment of a new key does to the enumeration. -/
theorem keys_assign_new {o : Obj α} {k : JsString} (hnew : k ∉ o.keys) (v : α) :
    (assign o k v).keys.Perm (o.keys ++ assignable [k]) ∧
      named (assign o k v).keys = named o.keys ++ named (assignable [k]) := by
  unfold assign
  split
  · rename_i hproto
    have hnone : assignable [k] = [] := by simp [assignable, hproto]
    rw [hnone]
    exact ⟨by simp, by simp [named]⟩
  · rename_i hproto
    have hone : assignable [k] = [k] := by simp [assignable, hproto]
    rw [hone, setOwn, if_neg (fun hany => hnew (mem_keys_iff_any.mp hany))]
    have hcomm : ([k] ++ o.keys).Perm (o.keys ++ [k]) := List.perm_append_comm
    exact ⟨(keys_insertNew_perm k v o).trans hcomm, named_insertNew o k v⟩

/-- `for (const [k, v] of entries) o[k] = v`. -/
def fill (o entries : Obj α) : Obj α := entries.foldl (fun out e => assign out e.1 e.2) o

/-- **The keys of an object after a loop of assignments** to new keys. -/
theorem keys_fill {o entries : Obj α} (h : InOrder o.keys) (hnd : (o.keys ++ entries.keys).Nodup) :
    InOrder (fill o entries).keys ∧ (fill o entries).keys.Perm (o.keys ++ assignable entries.keys) ∧
      named (fill o entries).keys = named o.keys ++ named (assignable entries.keys) := by
  induction entries generalizing o with
  | nil => exact ⟨h, by simp [fill, assignable, keys], by simp [fill, assignable, keys, named]⟩
  | cons e entries ih =>
    have hsplit : assignable (keys (e :: entries)) = assignable [e.1] ++ assignable (keys entries) :=
      List.filter_append [e.1] (keys entries)
    obtain ⟨ho, hentries, hdisjoint⟩ := List.nodup_append.mp hnd
    have hnew : e.1 ∉ o.keys := fun hmem => hdisjoint e.1 hmem e.1 List.mem_cons_self rfl
    obtain ⟨hperm, hnamed⟩ := keys_assign_new hnew e.2
    have hnd' : ((assign o e.1 e.2).keys ++ keys entries).Nodup := by
      have hsub : (o.keys ++ assignable [e.1] ++ keys entries).Sublist (o.keys ++ keys (e :: entries)) := by
        rw [List.append_assoc]
        exact (List.Sublist.refl _).append ((List.filter_sublist (l := [e.1])).append (List.Sublist.refl _))
      exact ((hperm.append_right _).nodup_iff).mpr (hnd.sublist hsub)
    obtain ⟨horder, hkeys, hrest⟩ := ih (inOrder_assign h e.1 e.2) hnd'
    refine ⟨horder, ?_, ?_⟩
    · rw [hsplit, ← List.append_assoc]
      exact hkeys.trans (hperm.append_right _)
    · have happend : named (assignable [e.1] ++ assignable (keys entries)) =
          named (assignable [e.1]) ++ named (assignable (keys entries)) := List.filter_append _ _
      rw [hsplit, happend, ← List.append_assoc, ← hnamed]
      exact hrest

/-- **Filling an object in another order** gives the same enumeration exactly when the keys that are no array
indices come in the same order. -/
theorem keys_fill_eq_iff {entries entries' : Obj α} (hnd : entries.keys.Nodup) (hperm : entries.Perm entries') :
    (fill [] entries).keys = (fill [] entries').keys ↔
      named (assignable entries.keys) = named (assignable entries'.keys) := by
  have hempty : InOrder (keys ([] : Obj α)) := List.Pairwise.nil
  have hkeys : entries.keys.Perm entries'.keys := hperm.map _
  obtain ⟨horder, hall, hnamed⟩ := keys_fill hempty hnd
  obtain ⟨horder', hall', hnamed'⟩ := keys_fill hempty (hkeys.nodup_iff.mp hnd)
  rw [eq_iff_named horder horder' (hall.trans (((hkeys.filter _).append_left _).trans hall'.symm)), hnamed, hnamed']
  exact Iff.rfl

end Obj

end Wanfw.Js
