import Mathlib.Data.Finset.Card
import Mathlib.Data.List.Chain
import Mathlib.Logic.Function.Basic
import Mathlib.Logic.Relation

/-!
# Looking for a cycle depth-first

The search with three colours: a node is gray while it is on the path from the root, and black
when all that can be reached from it has been seen. A gray successor closes a cycle.

`findCycle_found_iff`: the search finds a cycle just when the graph has one. One half follows the
path (`IsChain`), the other the order in which the nodes become black: every successor of a node
is black before it (`Finished`), and so there is no way back.
-/

namespace Wanfw.Graph

open Relation

/-- The colours: not seen, on the path, done. -/
inductive Color where
  | white
  | gray
  | black
  deriving DecidableEq

/-- How a search ends. Out of steps, with a cycle, or with the colours it leaves. -/
inductive Outcome (α : Type) where
  | exhausted
  | found (cycle : List α)
  | done (color : α → Color)

variable {α : Type}

/-- Go on with the colours, if there are any. -/
def Outcome.andThen (outcome : Outcome α) (next : (α → Color) → Outcome α) : Outcome α :=
  match outcome with
  | .exhausted => .exhausted
  | .found cycle => .found cycle
  | .done color => next color

section Search

variable [DecidableEq α] (succ : α → List α)

/-- Look at the successors of the last node on the path, and visit those that are white. -/
def visitAll (visit : (α → Color) → α → Outcome α) (path : List α) : List α → (α → Color) → Outcome α
  | [], color => .done color
  | next :: rest, color =>
    match color next with
    | .gray => .found (path.drop (path.idxOf next) ++ [next])
    | .black => visitAll visit path rest color
    | .white => (visit color next).andThen (visitAll visit path rest)

/-- Visit a node that is reached over the path. -/
def visit : ℕ → List α → (α → Color) → α → Outcome α
  | 0, _, _, _ => .exhausted
  | fuel + 1, path, color, node =>
    (visitAll (visit fuel (path ++ [node])) (path ++ [node]) (succ node) (Function.update color node .gray)).andThen
      fun color => .done (Function.update color node .black)

/-- Visit the nodes that are still white, one after the other. -/
def search (fuel : ℕ) : List α → (α → Color) → Outcome α
  | [], color => .done color
  | node :: nodes, color =>
    if color node = .white then (visit succ fuel [] color node).andThen (search fuel nodes) else search fuel nodes color

/-- The search from the beginning, in a graph where only `nodes` have successors. -/
def findCycle (nodes : List α) : Outcome α := search succ (nodes.length + 1) nodes fun _ => .white

/-- An edge of the graph. -/
def Edge (x y : α) : Prop := y ∈ succ x

end Search

variable {succ : α → List α}

/-! ### The order in which nodes are done -/

/-- Nodes, the last one first, each with all its successors before it. -/
inductive Finished (succ : α → List α) : List α → Prop where
  | nil : Finished succ []
  | cons {x : α} {done : List α} (h : Finished succ done) (hx : ∀ y ∈ succ x, y ∈ done) : Finished succ (x :: done)

/-- What is reached from a node that is done is done. -/
theorem Finished.mem_of_reaches {done : List α} (h : Finished succ done) {x y : α} (hx : x ∈ done)
    (hxy : ReflTransGen (Edge succ) x y) : y ∈ done := by
  induction hxy with
  | refl => exact hx
  | tail _ hstep ih =>
    clear hx
    induction h with
    | nil => cases ih
    | cons h hx ih' =>
      rcases List.mem_cons.mp ih with rfl | hmem
      · exact List.mem_cons_of_mem _ (hx _ hstep)
      · exact List.mem_cons_of_mem _ (ih' hmem)

/-- No node that is done is on a cycle. -/
theorem Finished.acyclic {done : List α} (h : Finished succ done) {x : α} (hx : x ∈ done) :
    ¬ TransGen (Edge succ) x x := by
  induction h with
  | nil => cases hx
  | cons h hsucc ih =>
    intro hcycle
    rcases List.mem_cons.mp hx with rfl | hmem
    · -- the way back leads over a successor, which was done before
      obtain ⟨y, hstep, hback⟩ := TransGen.head'_iff.mp hcycle
      exact ih (h.mem_of_reaches (hsucc y hstep) hback) hcycle
    · exact ih hmem hcycle

/-! ### Closed walks -/

/-- A walk along the edges that ends where it begins. -/
structure ClosedWalk (succ : α → List α) (walk : List α) : Prop where
  chain : walk.IsChain (Edge succ)
  closed : ∃ x rest, walk = x :: (rest ++ [x])

/-- A walk back to its first node is a cycle. -/
theorem transGen_of_closed {R : α → α → Prop} {x : α} {rest : List α} (h : (x :: (rest ++ [x])).IsChain R) : TransGen R x x := by
  rw [← List.cons_append, List.isChain_append] at h
  obtain ⟨hwalk, -, hlast⟩ := h
  have hreach := List.relationReflTransGen_of_exists_isChain_cons rest hwalk rfl
  exact .tail' hreach (hlast _ (List.getLast?_eq_getLast_of_ne_nil (List.cons_ne_nil _ _)) x rfl)

theorem ClosedWalk.transGen {walk : List α} (h : ClosedWalk succ walk) : ∃ x, TransGen (Edge succ) x x := by
  obtain ⟨x, rest, rfl⟩ := h.closed
  exact ⟨x, transGen_of_closed h.chain⟩

variable [DecidableEq α]

/-- A successor on the path closes a walk. -/
theorem closedWalk_drop {path : List α} {next : α} (hchain : path.IsChain (Edge succ))
    (hstep : ∀ last ∈ path.getLast?, Edge succ last next) (hmem : next ∈ path) :
    ClosedWalk succ (path.drop (path.idxOf next) ++ [next]) := by
  have hlt := List.idxOf_lt_length_of_mem hmem
  have hdrop : path.drop (path.idxOf next) = next :: path.drop (path.idxOf next + 1) := by
    rw [List.drop_eq_getElem_cons hlt, List.getElem_idxOf hlt]
  refine ⟨?_, next, path.drop (path.idxOf next + 1), by rw [hdrop, List.cons_append]⟩
  refine (hchain.drop _).append (List.isChain_singleton _) fun last hlast y hy => ?_
  cases hy
  apply hstep
  rwa [List.getLast?_drop, if_neg (Nat.not_le.mpr hlt)] at hlast

/-! ### What a visit leaves -/

/-- What the colours say: the path is gray, and the nodes that are done are black. -/
structure Coloured (succ : α → List α) (path : List α) (color : α → Color) (done : List α) : Prop where
  black : ∀ x, color x = .black ↔ x ∈ done
  gray : ∀ x, color x = .gray ↔ x ∈ path
  finished : Finished succ done
  chain : path.IsChain (Edge succ)

/-- What is right about the outcome of visiting `nodes`: a cycle that is found is one, and without
one the nodes are done. -/
def Outcome.Right (succ : α → List α) (path done nodes : List α) : Outcome α → Prop
  | .exhausted => True
  | .found cycle => ClosedWalk succ cycle
  | .done color => ∃ done', Coloured succ path color done' ∧ done ⊆ done' ∧ nodes ⊆ done'

section Outcome

variable {path path' done done' nodes nodes' : List α} {outcome : Outcome α} {next : (α → Color) → Outcome α}

omit [DecidableEq α] in
/-- Nodes that were done before are done. -/
theorem Outcome.Right.cons (h : outcome.Right succ path done' nodes) (hsub : done ⊆ done') {node : α}
    (hnode : node ∈ done') : outcome.Right succ path done (node :: nodes) := by
  cases outcome with
  | exhausted => trivial
  | found cycle => exact h
  | done color =>
    obtain ⟨done'', hcoloured, hsub', hnodes⟩ := h
    exact ⟨done'', hcoloured, List.Subset.trans hsub hsub', List.cons_subset.mpr ⟨hsub' hnode, hnodes⟩⟩

omit [DecidableEq α] in
/-- One part of a search after the other. -/
theorem Outcome.Right.andThen (h : outcome.Right succ path done nodes)
    (hnext : ∀ color done', Coloured succ path color done' → done ⊆ done' → nodes ⊆ done' →
      (next color).Right succ path' done nodes') : (outcome.andThen next).Right succ path' done nodes' := by
  cases outcome with
  | exhausted => trivial
  | found cycle => exact h
  | done color =>
    obtain ⟨done', hcoloured, hsub, hnodes⟩ := h
    exact hnext color done' hcoloured hsub hnodes

end Outcome

theorem right_visitAll {visit : (α → Color) → α → Outcome α} {path : List α}
    (hvisit : ∀ color done node, Coloured succ path color done → color node = .white →
      (∀ last ∈ path.getLast?, Edge succ last node) → (visit color node).Right succ path done [node])
    (nodes : List α) {color : α → Color} {done : List α} (h : Coloured succ path color done)
    (hnodes : ∀ node ∈ nodes, ∀ last ∈ path.getLast?, Edge succ last node) :
    (visitAll visit path nodes color).Right succ path done nodes := by
  induction nodes generalizing color done with
  | nil => exact ⟨done, h, List.Subset.refl _, List.nil_subset _⟩
  | cons next rest ih =>
    obtain ⟨hnext, hrest⟩ := List.forall_mem_cons.mp hnodes
    rw [visitAll]
    split
    · rename_i hgray
      exact closedWalk_drop h.chain hnext ((h.gray next).mp hgray)
    · rename_i hblack
      exact (ih h hrest).cons (List.Subset.refl _) ((h.black next).mp hblack)
    · rename_i hwhite
      refine (hvisit color done next h hwhite hnext).andThen fun color' done' h' hsub hmem => ?_
      exact (ih h' hrest).cons hsub (hmem (List.mem_singleton_self next))

/-- A visit goes one node further. -/
theorem Coloured.enter {path done : List α} {color : α → Color} {node : α} (h : Coloured succ path color done)
    (hwhite : color node = .white) (hstep : ∀ last ∈ path.getLast?, Edge succ last node) :
    Coloured succ (path ++ [node]) (Function.update color node .gray) done := by
  refine ⟨fun x => ?_, fun x => ?_, h.finished, h.chain.append (List.isChain_singleton _) ?_⟩
  · by_cases hx : x = node
    · subst hx
      have hnot : x ∉ done := fun hmem => by simp [(h.black x).mpr hmem] at hwhite
      simp [hnot]
    · rw [Function.update_of_ne hx, h.black]
  · by_cases hx : x = node
    · simp [hx]
    · rw [Function.update_of_ne hx, h.gray]
      simp [hx]
  · intro last hlast y hy
    cases hy
    exact hstep last hlast

/-- A visit is over. -/
theorem Coloured.leave {path done : List α} {color : α → Color} {node : α}
    (h : Coloured succ (path ++ [node]) color done) (hnew : node ∉ path) (hsucc : succ node ⊆ done) :
    Coloured succ path (Function.update color node .black) (node :: done) := by
  refine ⟨fun x => ?_, fun x => ?_, h.finished.cons hsucc, h.chain.left_of_append⟩
  · by_cases hx : x = node
    · simp [hx]
    · rw [Function.update_of_ne hx, h.black]
      simp [hx]
  · by_cases hx : x = node
    · subst hx
      simp [hnew]
    · rw [Function.update_of_ne hx, h.gray]
      simp [hx]

theorem right_visit (fuel : ℕ) {path done : List α} {color : α → Color} {node : α} (h : Coloured succ path color done)
    (hwhite : color node = .white) (hstep : ∀ last ∈ path.getLast?, Edge succ last node) :
    (visit succ fuel path color node).Right succ path done [node] := by
  induction fuel generalizing path done color node with
  | zero => trivial
  | succ fuel ih =>
    have hnew : node ∉ path := fun hmem => by simp [(h.gray node).mpr hmem] at hwhite
    have hlast : ∀ next ∈ succ node, ∀ last ∈ (path ++ [node]).getLast?, Edge succ last next := by
      intro next hnext last hlast
      rw [List.getLast?_concat, Option.mem_some_iff] at hlast
      exact hlast ▸ hnext
    refine (right_visitAll (fun _ _ _ => ih) (succ node) (h.enter hwhite hstep) hlast).andThen ?_
    intro color' done' h' hsub hsucc
    refine ⟨node :: done', h'.leave hnew hsucc, List.Subset.trans hsub (List.subset_cons_self _ _), ?_⟩
    exact List.cons_subset.mpr ⟨List.mem_cons_self, List.nil_subset _⟩

theorem right_search (fuel : ℕ) (nodes : List α) {done : List α} {color : α → Color} (h : Coloured succ [] color done) :
    (search succ fuel nodes color).Right succ [] done nodes := by
  induction nodes generalizing color done with
  | nil => exact ⟨done, h, List.Subset.refl _, List.nil_subset _⟩
  | cons node nodes ih =>
    rw [search]
    split
    · rename_i hwhite
      refine (right_visit fuel h hwhite fun last hlast => by cases hlast).andThen fun color' done' h' hsub hmem => ?_
      exact (ih h').cons hsub (hmem (List.mem_singleton_self node))
    · rename_i hwhite
      have hblack : color node = .black := by
        cases hcolor : color node with
        | white => exact absurd hcolor hwhite
        | gray => exact absurd ((h.gray node).mp hcolor) List.not_mem_nil
        | black => rfl
      exact (ih h).cons (List.Subset.refl _) ((h.black node).mp hblack)

/-! ### The steps suffice -/

/-- The nodes that are still white. -/
def whites (nodes : List α) (color : α → Color) : Finset α := {x ∈ nodes.toFinset | color x = .white}

/-- Nothing becomes white, and the search does not run out of steps. -/
def Outcome.Settled (color : α → Color) : Outcome α → Prop
  | .exhausted => False
  | .found _ => True
  | .done color' => ∀ x, color' x = .white → color x = .white

omit [DecidableEq α] in
theorem Outcome.Settled.andThen {outcome : Outcome α} {next : (α → Color) → Outcome α} {color color' : α → Color}
    (h : outcome.Settled color)
    (hnext : ∀ color'', (∀ x, color'' x = .white → color x = .white) → (next color'').Settled color') :
    (outcome.andThen next).Settled color' := by
  cases outcome with
  | exhausted => exact h
  | found cycle => trivial
  | done color'' => exact hnext color'' h

omit [DecidableEq α] in
theorem Outcome.Settled.trans {outcome : Outcome α} {color color' : α → Color} (h : outcome.Settled color')
    (hwhite : ∀ x, color' x = .white → color x = .white) : outcome.Settled color := by
  cases outcome with
  | exhausted => exact h
  | found cycle => trivial
  | done color'' => exact fun x hx => hwhite x (h x hx)

section Settled

variable {nodes : List α}

theorem card_whites_le {color color' : α → Color} (h : ∀ x, color' x = .white → color x = .white) :
    (whites nodes color').card ≤ (whites nodes color).card :=
  Finset.card_le_card (Finset.monotone_filter_right _ fun x _ hx => h x hx)

theorem card_whites_lt {color : α → Color} {node : α} (hmem : node ∈ nodes) (hwhite : color node = .white) :
    (whites nodes (Function.update color node .gray)).card < (whites nodes color).card := by
  have hsub : whites nodes (Function.update color node .gray) ⊆ whites nodes color := by
    intro x hx
    obtain ⟨hx, hcolor⟩ := Finset.mem_filter.mp hx
    refine Finset.mem_filter.mpr ⟨hx, ?_⟩
    by_cases hne : x = node
    · rw [hne, hwhite]
    · rwa [Function.update_of_ne hne] at hcolor
  refine Finset.card_lt_card ((Finset.ssubset_iff_of_subset hsub).mpr ⟨node, ?_, ?_⟩)
  · exact Finset.mem_filter.mpr ⟨List.mem_toFinset.mpr hmem, hwhite⟩
  · simp [whites]

theorem settled_visitAll {visit : (α → Color) → α → Outcome α} {path : List α} {n : ℕ}
    (hvisit : ∀ color node, color node = .white → (whites nodes color).card < n → (visit color node).Settled color)
    (nexts : List α) {color : α → Color} (h : (whites nodes color).card < n) :
    (visitAll visit path nexts color).Settled color := by
  induction nexts generalizing color with
  | nil => exact fun _ hx => hx
  | cons next rest ih =>
    rw [visitAll]
    split
    · trivial
    · exact ih h
    · rename_i hwhite
      refine (hvisit color next hwhite h).andThen fun color' hcolor' => ?_
      exact (ih ((card_whites_le hcolor').trans_lt h)).trans hcolor'

/-- Only `nodes` have successors, and fewer of them are white than there are steps. -/
theorem settled_visit (hsucc : ∀ x, succ x ≠ [] → x ∈ nodes) (fuel : ℕ) {path : List α} {color : α → Color} {node : α}
    (hwhite : color node = .white) (h : (whites nodes color).card < fuel) :
    (visit succ fuel path color node).Settled color := by
  induction fuel generalizing path color node with
  | zero => omega
  | succ fuel ih =>
    have hgray : ∀ x, Function.update color node .gray x = .white → color x = .white := by
      intro x hx
      by_cases hne : x = node
      · rw [hne, hwhite]
      · rwa [Function.update_of_ne hne] at hx
    have hall : (visitAll (visit succ fuel (path ++ [node])) (path ++ [node]) (succ node)
        (Function.update color node .gray)).Settled (Function.update color node .gray) := by
      by_cases hnil : succ node = []
      · rw [hnil]
        exact fun _ hx => hx
      · have hless := card_whites_lt (hsucc node hnil) hwhite
        exact settled_visitAll (fun color node => ih) (succ node) (by omega)
    refine (hall.trans hgray).andThen fun color' hcolor' x hx => hcolor' x ?_
    by_cases hne : x = node
    · simp [hne] at hx
    · rwa [Function.update_of_ne hne] at hx

theorem settled_search (hsucc : ∀ x, succ x ≠ [] → x ∈ nodes) (fuel : ℕ) (roots : List α) {color : α → Color}
    (h : (whites nodes color).card < fuel) : (search succ fuel roots color).Settled color := by
  induction roots generalizing color with
  | nil => exact fun _ hx => hx
  | cons node roots ih =>
    rw [search]
    split
    · rename_i hwhite
      refine (settled_visit hsucc fuel hwhite h).andThen fun color' hcolor' => ?_
      exact (ih ((card_whites_le hcolor').trans_lt h)).trans hcolor'
    · exact ih h

end Settled

/-! ### The search -/

/-- **The search is right**: it ends, what it finds is a cycle, and it finds one if there is one. -/
theorem findCycle_cases {nodes : List α} (hsucc : ∀ x, succ x ≠ [] → x ∈ nodes) :
    (∃ cycle, findCycle succ nodes = .found cycle ∧ ClosedWalk succ cycle) ∨
      (∃ color, findCycle succ nodes = .done color) ∧ ∀ x, ¬ TransGen (Edge succ) x x := by
  have hcard : (whites nodes fun _ => .white).card < nodes.length + 1 :=
    Nat.lt_succ_of_le ((Finset.card_filter_le _ _).trans nodes.toFinset_card_le)
  have hsettled := settled_search hsucc (nodes.length + 1) nodes hcard
  have hstart : Coloured succ [] (fun _ => .white) [] := ⟨by simp, by simp, .nil, .nil⟩
  have hright := right_search (nodes.length + 1) nodes hstart
  change (findCycle succ nodes).Settled _ at hsettled
  change (findCycle succ nodes).Right _ _ _ _ at hright
  cases hout : findCycle succ nodes with
  | exhausted =>
    rw [hout] at hsettled
    exact hsettled.elim
  | found cycle =>
    rw [hout] at hright
    exact .inl ⟨cycle, rfl, hright⟩
  | done color =>
    rw [hout] at hright
    obtain ⟨done, hcoloured, -, hnodes⟩ := hright
    refine .inr ⟨⟨color, rfl⟩, fun x hcycle => ?_⟩
    obtain ⟨y, hstep, -⟩ := TransGen.head'_iff.mp hcycle
    exact hcoloured.finished.acyclic (hnodes (hsucc x (List.ne_nil_of_mem hstep))) hcycle

/-- The search finds a cycle just when the graph has one. -/
theorem findCycle_found_iff {nodes : List α} (hsucc : ∀ x, succ x ≠ [] → x ∈ nodes) :
    (∃ cycle, findCycle succ nodes = .found cycle) ↔ ∃ x, TransGen (Edge succ) x x := by
  rcases findCycle_cases hsucc with ⟨cycle, hfound, hwalk⟩ | ⟨⟨color, hdone⟩, hacyclic⟩
  · exact ⟨fun _ => hwalk.transGen, fun _ => ⟨cycle, hfound⟩⟩
  · refine ⟨fun ⟨cycle, hfound⟩ => ?_, fun ⟨x, hcycle⟩ => absurd hcycle (hacyclic x)⟩
    rw [hdone] at hfound
    cases hfound

end Wanfw.Graph
