import Mathlib.Data.List.Nodup
import Mathlib.Data.List.Pairwise
import Mathlib.Logic.Relation

/-!
# Calls over two queues

One side makes calls, each with an id of its own; the other side takes the requests in the order
in which they were sent, starts a piece of work for each or refuses it, and finishes the work
in any order. Responses are taken in the order in which they were sent, and settle the call that
still waits under their id. The calling side can close at any moment: what waits is settled then,
and what is called afterwards is settled at once.

`Exchange.Inv` holds in every run (`Exchange.inv_of_steps`): every request is in one place, and
every response stands for the result of the work for it, or for its refusal.
-/

namespace Wanfw.Protocol

/-- How a call is settled. -/
inductive Settlement (ρ : Type) where
  | answered (response : ρ)
  | closed

/-- A call: its id, unless it came too late, and how it was settled so far. -/
structure Call (ι κ ρ : Type) where
  id : Option ι
  request : κ
  settlements : List (Settlement ρ)

/-- A piece of work for a request. -/
structure Work (ι κ ρ : Type) where
  id : ι
  request : κ
  result : Option ρ

/-- Calls in one direction. -/
structure Exchange (ι κ ρ : Type) where
  calls : List (Call ι κ ρ)
  /-- The ids under which calls wait, with their numbers. -/
  pending : List (ι × ℕ)
  closed : Bool
  /-- The requests on their way. -/
  requests : List (ι × κ)
  works : List (Work ι κ ρ)
  refused : List (ι × κ)
  /-- The responses on their way. -/
  responses : List (ι × ρ)

variable {ι κ ρ : Type}

/-- Settle the call of a number. -/
def settle (n : ℕ) (s : Settlement ρ) (calls : List (Call ι κ ρ)) : List (Call ι κ ρ) :=
  calls.modify n fun c => { c with settlements := c.settlements ++ [s] }

/-- Settle all that waits. -/
def settleAll (pending : List (ι × ℕ)) (calls : List (Call ι κ ρ)) : List (Call ι κ ρ) :=
  pending.foldl (fun calls e => settle e.2 .closed calls) calls

namespace Exchange

/-- Nothing was called. -/
def initial : Exchange ι κ ρ := ⟨[], [], false, [], [], [], []⟩

/-- What can happen. A request that is refused has the response `refusal`. -/
inductive Step [DecidableEq ι] (refusal : κ → ρ) (e : Exchange ι κ ρ) : Exchange ι κ ρ → Prop where
  | call (id : ι) (request : κ) (hopen : e.closed = false) (hfresh : ∀ c ∈ e.calls, c.id ≠ some id) :
    Step refusal e { e with
      calls := e.calls ++ [⟨some id, request, []⟩]
      pending := e.pending ++ [(id, e.calls.length)]
      requests := e.requests ++ [(id, request)] }
  | late (request : κ) (hclosed : e.closed = true) :
    Step refusal e { e with calls := e.calls ++ [⟨none, request, [.closed]⟩] }
  | start (id : ι) (request : κ) (rest : List (ι × κ)) (h : e.requests = (id, request) :: rest) :
    Step refusal e { e with requests := rest, works := e.works ++ [⟨id, request, none⟩] }
  | refuse (id : ι) (request : κ) (rest : List (ι × κ)) (h : e.requests = (id, request) :: rest) :
    Step refusal e { e with
      requests := rest
      refused := e.refused ++ [(id, request)]
      responses := e.responses ++ [(id, refusal request)] }
  | finish (before after : List (Work ι κ ρ)) (id : ι) (request : κ) (result : ρ)
      (h : e.works = before ++ ⟨id, request, none⟩ :: after) :
    Step refusal e { e with
      works := before ++ ⟨id, request, some result⟩ :: after
      responses := e.responses ++ [(id, result)] }
  | answer (id : ι) (response : ρ) (rest : List (ι × ρ)) (n : ℕ) (h : e.responses = (id, response) :: rest)
      (hpending : (id, n) ∈ e.pending) :
    Step refusal e { e with
      responses := rest
      pending := e.pending.filter fun p => p.1 ≠ id
      calls := settle n (.answered response) e.calls }
  | drop (id : ι) (response : ρ) (rest : List (ι × ρ)) (h : e.responses = (id, response) :: rest)
      (hpending : ∀ n, (id, n) ∉ e.pending) :
    Step refusal e { e with responses := rest }
  | close : Step refusal e { e with closed := true, calls := settleAll e.pending e.calls, pending := [] }

/-- The ids of the calls that were sent. -/
def ids (e : Exchange ι κ ρ) : List ι := e.calls.filterMap Call.id

/-- The requests that were sent, each in its place: on its way, with the work for it, or refused. -/
def places (e : Exchange ι κ ρ) : List (ι × κ) :=
  e.requests ++ e.works.map (fun w => (w.id, w.request)) ++ e.refused

/-- A response stands for something: for the result of a work, or for a refusal. -/
def Stands (refusal : κ → ρ) (e : Exchange ι κ ρ) (id : ι) (response : ρ) : Prop :=
  (∃ request, ⟨id, request, some response⟩ ∈ e.works) ∨ ∃ request, (id, request) ∈ e.refused ∧ response = refusal request

/-- What holds in every run. -/
structure Inv (refusal : κ → ρ) (e : Exchange ι κ ρ) : Prop where
  ids : e.ids.Nodup
  places : (e.places.map Prod.fst).Nodup
  /-- A request was sent by a call. -/
  origin : ∀ id request, (id, request) ∈ e.places → ∃ c ∈ e.calls, c.id = some id ∧ c.request = request
  responses : ∀ id response, (id, response) ∈ e.responses → e.Stands refusal id response
  answered : ∀ c ∈ e.calls, ∀ response, .answered response ∈ c.settlements →
    ∃ id, c.id = some id ∧ e.Stands refusal id response
  once : ∀ c ∈ e.calls, c.settlements.length ≤ 1
  /-- What waits is not settled. -/
  waiting : ∀ id n, (id, n) ∈ e.pending → ∃ c, e.calls[n]? = some c ∧ c.id = some id ∧ c.settlements = []
  pendingIds : (e.pending.map Prod.fst).Nodup
  /-- What is not settled waits. -/
  unsettled : ∀ n c, e.calls[n]? = some c → c.settlements = [] → ∃ id, c.id = some id ∧ (id, n) ∈ e.pending
  closedPending : e.closed = true → e.pending = []
  closedSettlement : ∀ c ∈ e.calls, .closed ∈ c.settlements → e.closed = true
  late : ∀ c ∈ e.calls, c.id = none → c.settlements = [.closed]

/-! ### Settling -/

section Settle

variable {calls : List (Call ι κ ρ)} {n m : ℕ} {s : Settlement ρ}

theorem getElem?_settle : (settle n s calls)[m]? =
    if n = m then calls[m]?.map fun c => { c with settlements := c.settlements ++ [s] } else calls[m]? := by
  rw [settle, List.getElem?_modify]
  split <;> simp

theorem mem_settle {c : Call ι κ ρ} (h : c ∈ settle n s calls) :
    c ∈ calls ∨ ∃ c₀, calls[n]? = some c₀ ∧ c = { c₀ with settlements := c₀.settlements ++ [s] } := by
  obtain ⟨m, hm⟩ := List.mem_iff_getElem?.mp h
  rw [getElem?_settle] at hm
  split at hm
  · rename_i heq
    obtain ⟨c₀, hc₀, rfl⟩ := Option.map_eq_some_iff.mp hm
    exact .inr ⟨c₀, heq ▸ hc₀, rfl⟩
  · exact .inl (List.mem_of_getElem? hm)

/-- Settling does not change what was called. -/
theorem map_settle {α : Type} {f : Call ι κ ρ → α} (hf : ∀ c l, f { c with settlements := l } = f c) :
    (settle n s calls).map f = calls.map f := by
  refine List.ext_getElem? fun m => ?_
  rw [List.getElem?_map, List.getElem?_map, getElem?_settle]
  split
  · rw [Option.map_map]
    exact congrArg (fun g => calls[m]?.map g) (funext fun c => hf c _)
  · rfl

theorem map_settleAll {α : Type} {f : Call ι κ ρ → α} (hf : ∀ c l, f { c with settlements := l } = f c)
    (pending : List (ι × ℕ)) : (settleAll pending calls).map f = calls.map f := by
  induction pending generalizing calls with
  | nil => rfl
  | cons e pending ih => exact (@ih (settle e.2 .closed calls)).trans (map_settle hf)

/-- Each call that waits is settled once more. -/
theorem getElem?_settleAll {pending : List (ι × ℕ)} (hnodup : (pending.map Prod.snd).Nodup) :
    (settleAll pending calls)[m]? = if m ∈ pending.map Prod.snd then
      calls[m]?.map fun c => { c with settlements := c.settlements ++ [.closed] } else calls[m]? := by
  induction pending generalizing calls with
  | nil => simp [settleAll]
  | cons e pending ih =>
    rw [List.map_cons, List.nodup_cons] at hnodup
    have hcons : settleAll (e :: pending) calls = settleAll pending (settle e.2 .closed calls) := rfl
    rw [hcons, ih hnodup.2, getElem?_settle]
    simp only [List.map_cons, List.mem_cons]
    by_cases he : e.2 = m
    · rw [if_neg (he ▸ hnodup.1), if_pos he, if_pos (.inl he.symm)]
    · have hne : m ≠ e.2 := fun h => he h.symm
      rw [if_neg he]
      simp only [hne, false_or]

end Settle

/-! ### What a step keeps -/

section Steps

variable {refusal : κ → ρ} {e e' : Exchange ι κ ρ}

/-- The calls of two states are the same, but for how they were settled. -/
theorem Inv.originOf (h : e.Inv refusal) (hsent : e'.calls.map (fun c => (c.id, c.request)) =
    e.calls.map fun c => (c.id, c.request)) {id : ι} {request : κ} (hplace : (id, request) ∈ e.places) :
    ∃ c ∈ e'.calls, c.id = some id ∧ c.request = request := by
  obtain ⟨c, hc, hid, hrequest⟩ := h.origin id request hplace
  have hmem : (some id, request) ∈ e'.calls.map fun c => (c.id, c.request) := by
    rw [hsent]
    exact List.mem_map.mpr ⟨c, hc, Prod.ext hid hrequest⟩
  obtain ⟨c', hc', heq⟩ := List.mem_map.mp hmem
  obtain ⟨hid', hrequest'⟩ := Prod.mk.inj heq
  exact ⟨c', hc', hid', hrequest'⟩

theorem nodup_ids {calls calls' : List (Call ι κ ρ)} (hsent : calls'.map (fun c => (c.id, c.request)) =
    calls.map fun c => (c.id, c.request)) (h : (calls.filterMap Call.id).Nodup) : (calls'.filterMap Call.id).Nodup := by
  have hmap : ∀ calls : List (Call ι κ ρ),
      calls.filterMap Call.id = (calls.map fun c => (c.id, c.request)).filterMap Prod.fst := by
    intro calls
    rw [List.filterMap_map]
    rfl
  rw [hmap] at h ⊢
  rwa [hsent]

/-- Requests move from one place to another, and responses are sent that stand for something. -/
theorem Inv.move (h : e.Inv refusal) (hcalls : e'.calls = e.calls) (hpending : e'.pending = e.pending)
    (hclosed : e'.closed = e.closed) (hplaces : e'.places.Perm e.places)
    (hstands : ∀ id response, e.Stands refusal id response → e'.Stands refusal id response)
    (hresponses : ∀ id response, (id, response) ∈ e'.responses →
      (id, response) ∈ e.responses ∨ e'.Stands refusal id response) : e'.Inv refusal := by
  have hsent : e'.calls.map (fun c => (c.id, c.request)) = e.calls.map fun c => (c.id, c.request) := by rw [hcalls]
  refine ⟨nodup_ids hsent h.ids, ((hplaces.map Prod.fst).nodup_iff).mpr h.places,
    fun id request hplace => h.originOf hsent (hplaces.mem_iff.mp hplace), fun id response hmem => ?_, ?_, ?_, ?_, ?_, ?_, ?_, ?_, ?_⟩
  · rcases hresponses id response hmem with hold | hnew
    · exact hstands _ _ (h.responses id response hold)
    · exact hnew
  · rw [hcalls]
    intro c hc response hanswered
    obtain ⟨id, hid, hstand⟩ := h.answered c hc response hanswered
    exact ⟨id, hid, hstands _ _ hstand⟩
  · rw [hcalls]
    exact h.once
  · rw [hcalls, hpending]
    exact h.waiting
  · rw [hpending]
    exact h.pendingIds
  · rw [hcalls, hpending]
    exact h.unsettled
  · rw [hclosed, hpending]
    exact h.closedPending
  · rw [hcalls, hclosed]
    exact h.closedSettlement
  · rw [hcalls]
    exact h.late

/-- An id under which nothing was called is nowhere. -/
theorem Inv.unused (h : e.Inv refusal) {id : ι} (hfresh : ∀ c ∈ e.calls, c.id ≠ some id) :
    id ∉ e.places.map Prod.fst ∧ id ∉ e.pending.map Prod.fst := by
  constructor
  · intro hmem
    obtain ⟨⟨_, request⟩, hplace, rfl⟩ := List.mem_map.mp hmem
    obtain ⟨c, hc, hid, -⟩ := h.origin _ request hplace
    exact hfresh c hc hid
  · intro hmem
    obtain ⟨⟨_, n⟩, hpending, rfl⟩ := List.mem_map.mp hmem
    obtain ⟨c, hc, hid, -⟩ := h.waiting _ n hpending
    exact hfresh c (List.mem_of_getElem? hc) hid

theorem getElem?_concat_iff {α : Type} {xs : List α} {x y : α} {n : ℕ} :
    (xs ++ [x])[n]? = some y ↔ xs[n]? = some y ∨ n = xs.length ∧ y = x := by
  rcases Nat.lt_trichotomy n xs.length with hlt | rfl | hgt
  · rw [List.getElem?_append_left hlt]
    simp [Nat.ne_of_lt hlt]
  · simp [eq_comm]
  · have hnone : xs[n]? = none := List.getElem?_eq_none (Nat.le_of_lt hgt)
    rw [List.getElem?_eq_none (by simp; omega), hnone]
    simp [Nat.ne_of_gt hgt]

theorem Inv.call (h : e.Inv refusal) (hopen : e.closed = false) {id : ι} (request : κ)
    (hfresh : ∀ c ∈ e.calls, c.id ≠ some id) : Inv refusal { e with
      calls := e.calls ++ [⟨some id, request, []⟩]
      pending := e.pending ++ [(id, e.calls.length)]
      requests := e.requests ++ [(id, request)] } := by
  obtain ⟨hplace, hpending⟩ := h.unused hfresh
  have hplaces : (e.requests ++ [(id, request)] ++ e.works.map (fun w => (w.id, w.request)) ++ e.refused).Perm
      ((id, request) :: e.places) := by
    rw [Exchange.places, List.append_assoc, List.append_assoc, List.append_assoc]
    exact List.perm_middle
  have hold : ∀ c ∈ e.calls ++ [⟨some id, request, []⟩], c ∈ e.calls ∨ c = ⟨some id, request, []⟩ := fun c hc =>
    (List.mem_append.mp hc).imp_right List.mem_singleton.mp
  refine ⟨?_, ?_, ?_, h.responses, ?_, ?_, ?_, ?_, ?_, ?_, ?_, ?_⟩
  · rw [Exchange.ids, List.filterMap_append, List.nodup_append]
    refine ⟨h.ids, by simp, fun i hi j hj hij => ?_⟩
    simp only [List.filterMap_cons, List.filterMap_nil, List.mem_singleton] at hj
    obtain ⟨c, hc, hid⟩ := List.mem_filterMap.mp hi
    exact hfresh c hc (by rw [hid, hij, hj])
  · rw [Exchange.places, (hplaces.map Prod.fst).nodup_iff, List.map_cons, List.nodup_cons]
    exact ⟨hplace, h.places⟩
  · intro i r hmem
    rcases List.mem_cons.mp (hplaces.mem_iff.mp hmem) with heq | hmem
    · cases heq
      exact ⟨_, List.mem_append_right _ (List.mem_singleton_self _), rfl, rfl⟩
    · obtain ⟨c, hc, hid⟩ := h.origin i r hmem
      exact ⟨c, List.mem_append_left _ hc, hid⟩
  · intro c hc response hanswered
    rcases hold c hc with hc | rfl
    · exact h.answered c hc response hanswered
    · exact absurd hanswered List.not_mem_nil
  · intro c hc
    rcases hold c hc with hc | rfl
    · exact h.once c hc
    · exact Nat.zero_le 1
  · intro i n hmem
    rcases List.mem_append.mp hmem with hmem | hmem
    · obtain ⟨c, hc, hrest⟩ := h.waiting i n hmem
      exact ⟨c, getElem?_concat_iff.mpr (.inl hc), hrest⟩
    · obtain ⟨rfl, rfl⟩ := Prod.mk.inj (List.mem_singleton.mp hmem)
      exact ⟨_, getElem?_concat_iff.mpr (.inr ⟨rfl, rfl⟩), rfl, rfl⟩
  · rw [List.map_append, List.nodup_append]
    refine ⟨h.pendingIds, by simp, fun i hi j hj hij => hpending ?_⟩
    rw [List.map_singleton, List.mem_singleton] at hj
    rwa [hij, hj] at hi
  · intro n c hc hnil
    rcases getElem?_concat_iff.mp hc with hc | ⟨rfl, rfl⟩
    · obtain ⟨i, hi, hmem⟩ := h.unsettled n c hc hnil
      exact ⟨i, hi, List.mem_append_left _ hmem⟩
    · exact ⟨id, rfl, List.mem_append_right _ (List.mem_singleton_self _)⟩
  · intro hclosed
    rw [hopen] at hclosed
    cases hclosed
  · intro c hc hclosed
    rcases hold c hc with hc | rfl
    · exact h.closedSettlement c hc hclosed
    · exact absurd hclosed List.not_mem_nil
  · intro c hc hid
    rcases hold c hc with hc | rfl
    · exact h.late c hc hid
    · cases hid

theorem Inv.lateCall (h : e.Inv refusal) (hclosed : e.closed = true) (request : κ) :
    Inv refusal { e with calls := e.calls ++ [⟨none, request, [.closed]⟩] } := by
  have hold : ∀ c ∈ e.calls ++ [⟨none, request, [.closed]⟩], c ∈ e.calls ∨ c = ⟨none, request, [.closed]⟩ := fun c hc =>
    (List.mem_append.mp hc).imp_right List.mem_singleton.mp
  refine ⟨?_, h.places, ?_, h.responses, ?_, ?_, ?_, h.pendingIds, ?_, h.closedPending, fun _ _ _ => hclosed, ?_⟩
  · rw [Exchange.ids, List.filterMap_append]
    exact (List.append_nil e.ids).symm ▸ h.ids
  · intro i r hmem
    obtain ⟨c, hc, hid⟩ := h.origin i r hmem
    exact ⟨c, List.mem_append_left _ hc, hid⟩
  · intro c hc response hanswered
    rcases hold c hc with hc | rfl
    · exact h.answered c hc response hanswered
    · cases List.mem_singleton.mp hanswered
  · intro c hc
    rcases hold c hc with hc | rfl
    · exact h.once c hc
    · exact Nat.le_refl 1
  · intro i n hmem
    obtain ⟨c, hc, hrest⟩ := h.waiting i n hmem
    exact ⟨c, getElem?_concat_iff.mpr (.inl hc), hrest⟩
  · intro n c hc hnil
    rcases getElem?_concat_iff.mp hc with hc | ⟨-, rfl⟩
    · exact h.unsettled n c hc hnil
    · cases hnil
  · intro c hc hid
    rcases hold c hc with hc | rfl
    · exact h.late c hc hid
    · rfl

theorem Inv.answer (h : e.Inv refusal) {id : ι} {response : ρ} {rest : List (ι × ρ)} {n : ℕ} [DecidableEq ι]
    (hresponses : e.responses = (id, response) :: rest) (hpending : (id, n) ∈ e.pending) : Inv refusal { e with
      responses := rest
      pending := e.pending.filter fun p => p.1 ≠ id
      calls := settle n (.answered response) e.calls } := by
  obtain ⟨c₀, hc₀, hid₀, hnil₀⟩ := h.waiting id n hpending
  have hsent : (settle n (.answered response) e.calls).map (fun c => (c.id, c.request)) =
      e.calls.map fun c => (c.id, c.request) := map_settle fun _ _ => rfl
  have hstands : e.Stands refusal id response := h.responses id response (hresponses ▸ List.mem_cons_self)
  refine ⟨?_, h.places, fun i r hmem => h.originOf hsent hmem, fun i r hmem => ?_, ?_, ?_, ?_, ?_, ?_, ?_, ?_, ?_⟩
  · exact nodup_ids hsent h.ids
  · exact h.responses i r (hresponses ▸ List.mem_cons_of_mem _ hmem)
  · intro c hc r hanswered
    rcases mem_settle hc with hc | ⟨c', hc', rfl⟩
    · exact h.answered c hc r hanswered
    · obtain rfl := Option.some.inj (hc₀.symm.trans hc')
      rw [hnil₀] at hanswered
      cases List.mem_singleton.mp hanswered
      exact ⟨id, hid₀, hstands⟩
  · intro c hc
    rcases mem_settle hc with hc | ⟨c', hc', rfl⟩
    · exact h.once c hc
    · obtain rfl := Option.some.inj (hc₀.symm.trans hc')
      rw [hnil₀]
      exact Nat.le_refl 1
  · intro i m hmem
    obtain ⟨hmem, hne⟩ := List.mem_filter.mp hmem
    obtain ⟨c, hc, hid, hnil⟩ := h.waiting i m hmem
    have hother : n ≠ m := by
      rintro rfl
      rw [hc₀] at hc
      rw [← Option.some.inj hc, hid₀] at hid
      exact of_decide_eq_true hne (Option.some.inj hid).symm
    exact ⟨c, by rw [getElem?_settle, if_neg hother, hc], hid, hnil⟩
  · exact h.pendingIds.sublist (List.filter_sublist.map _)
  · intro m c hc hnil
    rw [getElem?_settle] at hc
    split at hc
    · obtain ⟨c', -, rfl⟩ := Option.map_eq_some_iff.mp hc
      exact absurd hnil (List.append_ne_nil_of_right_ne_nil _ (List.cons_ne_nil _ _))
    · rename_i hother
      obtain ⟨i, hi, hmem⟩ := h.unsettled m c hc hnil
      refine ⟨i, hi, List.mem_filter.mpr ⟨hmem, decide_eq_true ?_⟩⟩
      rintro rfl
      have hsame := List.inj_on_of_nodup_map h.pendingIds hmem hpending rfl
      exact hother (Prod.mk.inj hsame).2.symm
  · intro hclosed
    rw [h.closedPending hclosed] at hpending
    cases hpending
  · intro c hc hclosed
    rcases mem_settle hc with hc | ⟨c', hc', rfl⟩
    · exact h.closedSettlement c hc hclosed
    · obtain rfl := Option.some.inj (hc₀.symm.trans hc')
      rw [hnil₀] at hclosed
      cases List.mem_singleton.mp hclosed
  · intro c hc hid
    rcases mem_settle hc with hc | ⟨c', hc', rfl⟩
    · exact h.late c hc hid
    · obtain rfl := Option.some.inj (hc₀.symm.trans hc')
      rw [hid₀] at hid
      cases hid

/-- Two ids do not wait for one call. -/
theorem Inv.pendingNumbers (h : e.Inv refusal) : (e.pending.map Prod.snd).Nodup := by
  refine List.Nodup.map_on (fun p hp q hq heq => ?_) h.pendingIds.of_map
  obtain ⟨c, hc, hid, -⟩ := h.waiting p.1 p.2 hp
  obtain ⟨c', hc', hid', -⟩ := h.waiting q.1 q.2 hq
  rw [← heq, hc] at hc'
  rw [← Option.some.inj hc', hid] at hid'
  exact Prod.ext (Option.some.inj hid') heq

/-- What closing makes of a call. -/
theorem Inv.mem_settleAll (h : e.Inv refusal) {c : Call ι κ ρ} {n : ℕ} (hc : (settleAll e.pending e.calls)[n]? = some c) :
    c ∈ e.calls ∧ n ∉ e.pending.map Prod.snd ∨
      ∃ c₀ ∈ e.calls, c₀.settlements = [] ∧ c₀.id.isSome ∧ c = { c₀ with settlements := [.closed] } := by
  rw [getElem?_settleAll h.pendingNumbers] at hc
  split at hc
  · rename_i hmem
    obtain ⟨c₀, hc₀, rfl⟩ := Option.map_eq_some_iff.mp hc
    obtain ⟨⟨id, m⟩, hpending, rfl⟩ := List.mem_map.mp hmem
    obtain ⟨c', hc', hid, hnil⟩ := h.waiting id m hpending
    obtain rfl := Option.some.inj (hc₀.symm.trans hc')
    exact .inr ⟨c₀, List.mem_of_getElem? hc₀, hnil, by rw [hid]; rfl, by rw [hnil]; rfl⟩
  · rename_i hmem
    exact .inl ⟨List.mem_of_getElem? hc, hmem⟩

theorem Inv.close (h : e.Inv refusal) :
    Inv refusal { e with closed := true, calls := settleAll e.pending e.calls, pending := [] } := by
  have hsent : (settleAll e.pending e.calls).map (fun c => (c.id, c.request)) =
      e.calls.map fun c => (c.id, c.request) := map_settleAll (fun _ _ => rfl) _
  have hcases : ∀ c ∈ settleAll e.pending e.calls, c ∈ e.calls ∨
      ∃ c₀ ∈ e.calls, c₀.settlements = [] ∧ c₀.id.isSome ∧ c = { c₀ with settlements := [.closed] } := by
    intro c hc
    obtain ⟨n, hn⟩ := List.mem_iff_getElem?.mp hc
    exact (h.mem_settleAll hn).imp_left And.left
  refine ⟨nodup_ids hsent h.ids, h.places, fun i r hmem => h.originOf hsent hmem, h.responses, ?_, ?_, ?_, ?_, ?_,
    fun _ => rfl, fun _ _ _ => rfl, ?_⟩
  · intro c hc response hanswered
    rcases hcases c hc with hc | ⟨c₀, -, -, -, rfl⟩
    · exact h.answered c hc response hanswered
    · cases List.mem_singleton.mp hanswered
  · intro c hc
    rcases hcases c hc with hc | ⟨c₀, -, -, -, rfl⟩
    · exact h.once c hc
    · exact Nat.le_refl 1
  · exact fun _ _ hmem => absurd hmem List.not_mem_nil
  · exact List.nodup_nil
  · intro n c hc hnil
    rcases h.mem_settleAll hc with ⟨-, hnumber⟩ | ⟨c₀, -, -, -, rfl⟩
    · rw [getElem?_settleAll h.pendingNumbers, if_neg hnumber] at hc
      obtain ⟨i, -, hmem⟩ := h.unsettled n c hc hnil
      exact absurd (List.mem_map.mpr ⟨(i, n), hmem, rfl⟩) hnumber
    · cases hnil
  · intro c hc hid
    rcases hcases c hc with hc | ⟨c₀, -, -, hsome, rfl⟩
    · exact h.late c hc hid
    · simp [show c₀.id = none from hid] at hsome

/-- **Every step keeps the invariant.** -/
theorem Inv.step [DecidableEq ι] (h : e.Inv refusal) (hstep : Step refusal e e') : e'.Inv refusal := by
  cases hstep with
  | call id request hopen hfresh => exact h.call hopen request hfresh
  | late request hclosed => exact h.lateCall hclosed request
  | start id request rest hrequests =>
    refine h.move rfl rfl rfl ?_ (fun i r hstands => ?_) fun _ _ hmem => .inl hmem
    · rw [Exchange.places, Exchange.places, hrequests, List.map_append, List.map_singleton, ← List.append_assoc]
      exact (List.perm_append_singleton _ _).append_right _
    · exact hstands.imp_left fun ⟨k, hk⟩ => ⟨k, List.mem_append_left _ hk⟩
  | refuse id request rest hrequests =>
    refine h.move rfl rfl rfl ?_ (fun i r hstands => ?_) fun i r hmem => ?_
    · rw [Exchange.places, Exchange.places, hrequests, ← List.append_assoc, List.cons_append, List.cons_append]
      exact (List.perm_append_singleton _ _)
    · exact hstands.imp_right fun ⟨k, hk, hr⟩ => ⟨k, List.mem_append_left _ hk, hr⟩
    · rcases List.mem_append.mp hmem with hmem | hmem
      · exact .inl hmem
      · cases List.mem_singleton.mp hmem
        exact .inr (.inr ⟨request, List.mem_append_right _ (List.mem_singleton_self _), rfl⟩)
  | finish before after id request result hworks =>
    refine h.move rfl rfl rfl ?_ (fun i r hstands => ?_) fun i r hmem => ?_
    · rw [Exchange.places, Exchange.places, hworks, List.map_append, List.map_append, List.map_cons, List.map_cons]
    · refine hstands.imp_left fun ⟨k, hk⟩ => ⟨k, ?_⟩
      rw [hworks] at hk
      rcases List.mem_append.mp hk with hk | hk
      · exact List.mem_append_left _ hk
      · rcases List.mem_cons.mp hk with heq | hk
        · cases heq
        · exact List.mem_append_right _ (List.mem_cons_of_mem _ hk)
    · rcases List.mem_append.mp hmem with hmem | hmem
      · exact .inl hmem
      · cases List.mem_singleton.mp hmem
        exact .inr (.inl ⟨request, List.mem_append_right _ List.mem_cons_self⟩)
  | answer id response rest n hresponses hpending => exact h.answer hresponses hpending
  | drop id response rest hresponses hpending =>
    refine h.move rfl rfl rfl (List.Perm.refl _) (fun _ _ hstands => hstands) fun _ _ hmem => .inl ?_
    exact hresponses ▸ List.mem_cons_of_mem _ hmem
  | close => exact h.close

theorem Inv.initial : (initial : Exchange ι κ ρ).Inv refusal := by
  constructor <;> simp [Exchange.initial, Exchange.ids, Exchange.places]

/-- **Every run keeps the invariant.** -/
theorem inv_of_steps [DecidableEq ι] (h : Relation.ReflTransGen (Step refusal) initial e) : e.Inv refusal := by
  induction h with
  | refl => exact Inv.initial
  | tail _ hstep ih => exact ih.step hstep

/-! ### What the invariant says -/

/-- Calls are told apart by their ids. -/
theorem Inv.call_eq (h : e.Inv refusal) {c c' : Call ι κ ρ} (hc : c ∈ e.calls) (hc' : c' ∈ e.calls) {id : ι}
    (hid : c.id = some id) (hid' : c'.id = some id) : c = c' := by
  by_contra hne
  have hpairwise := List.pairwise_filterMap.mp h.ids
  have hsymm : Std.Symm fun c c' : Call ι κ ρ => ∀ i, c.id = some i → ∀ i', c'.id = some i' → i ≠ i' :=
    ⟨fun a b hab i hi i' hi' heq => hab i' hi' i hi heq.symm⟩
  exact hpairwise.forall hc hc' hne id hid id hid' rfl

/-- The only one with its key. -/
theorem filter_key_eq {α : Type} [DecidableEq ι] {key : α → ι} {xs : List α} (hnodup : (xs.map key).Nodup) {x : α}
    (hx : x ∈ xs) : xs.filter (fun y => key y = key x) = [x] := by
  induction xs with
  | nil => cases hx
  | cons y ys ih =>
    rw [List.map_cons, List.nodup_cons] at hnodup
    rcases List.mem_cons.mp hx with rfl | hx
    · rw [List.filter_cons_of_pos (by simp), List.cons_inj_right, List.filter_eq_nil_iff]
      intro z hz
      have hne : key z ≠ key x := fun heq => hnodup.1 (heq ▸ List.mem_map_of_mem hz)
      simpa using hne
    · have hne : key y ≠ key x := fun heq => hnodup.1 (heq ▸ List.mem_map_of_mem hx)
      rw [List.filter_cons_of_neg (by simpa using hne)]
      exact ih hnodup.2 hx

theorem Inv.workIds (h : e.Inv refusal) : (e.works.map Work.id).Nodup ∧
    ∀ w ∈ e.works, ∀ r ∈ e.refused, w.id ≠ r.1 := by
  have hplaces := h.places
  rw [Exchange.places, List.map_append, List.map_append, List.map_map, List.nodup_append] at hplaces
  obtain ⟨hrest, -, hrefused⟩ := hplaces
  refine ⟨(List.nodup_append.mp hrest).2.1, fun w hw r hr => ?_⟩
  exact hrefused w.id (List.mem_append_right _ (List.mem_map.mpr ⟨w, hw, rfl⟩)) r.1 (List.mem_map_of_mem hr)

/-- **Where an answer comes from**: from the only work under the id of the call, which is for its request, or from the
refusal of its request, for which there is no work. -/
theorem Inv.result [DecidableEq ι] (h : e.Inv refusal) {c : Call ι κ ρ} (hc : c ∈ e.calls) {response : ρ}
    (hanswered : .answered response ∈ c.settlements) : ∃ id, c.id = some id ∧
      (e.works.filter (fun w => w.id = id) = [⟨id, c.request, some response⟩] ∨
        (id, c.request) ∈ e.refused ∧ response = refusal c.request ∧ e.works.filter (fun w => w.id = id) = []) := by
  obtain ⟨id, hid, hstands⟩ := h.answered c hc response hanswered
  have hrequest : ∀ request, (id, request) ∈ e.places → request = c.request := by
    intro request hplace
    obtain ⟨c', hc', hid', hrequest⟩ := h.origin id request hplace
    rw [← hrequest, h.call_eq hc hc' hid hid']
  refine ⟨id, hid, ?_⟩
  rcases hstands with ⟨request, hwork⟩ | ⟨request, hrefused, rfl⟩
  · have hplace : (id, request) ∈ e.places :=
      List.mem_append_left _ (List.mem_append_right _ (List.mem_map.mpr ⟨_, hwork, rfl⟩))
    rw [hrequest request hplace] at hwork
    exact .inl (filter_key_eq h.workIds.1 hwork)
  · have hplace : (id, request) ∈ e.places := List.mem_append_right _ hrefused
    rw [hrequest request hplace] at hrefused ⊢
    refine .inr ⟨hrefused, rfl, List.filter_eq_nil_iff.mpr fun w hw => ?_⟩
    simpa using h.workIds.2 w hw _ hrefused

/-- Once the calling side is closed, nothing waits, and every call is settled. -/
theorem Inv.settled_of_closed (h : e.Inv refusal) (hclosed : e.closed = true) :
    e.pending = [] ∧ ∀ c ∈ e.calls, c.settlements ≠ [] := by
  refine ⟨h.closedPending hclosed, fun c hc hnil => ?_⟩
  obtain ⟨n, hn⟩ := List.mem_iff_getElem?.mp hc
  obtain ⟨id, -, hmem⟩ := h.unsettled n c hn hnil
  rw [h.closedPending hclosed] at hmem
  cases hmem

/-- What waits when the calling side closes is settled by that. -/
theorem Inv.settled_by_close (h : e.Inv refusal) {id : ι} {n : ℕ} (hpending : (id, n) ∈ e.pending) :
    ∃ c, (settleAll e.pending e.calls)[n]? = some c ∧ c.settlements = [.closed] := by
  obtain ⟨c, hc, -, hnil⟩ := h.waiting id n hpending
  rw [getElem?_settleAll h.pendingNumbers, if_pos (List.mem_map.mpr ⟨_, hpending, rfl⟩), hc]
  refine ⟨_, rfl, ?_⟩
  dsimp only
  rw [hnil]
  rfl

end Steps

end Exchange

end Wanfw.Protocol
