import Wanfw.Orchestrator.Renewal
import Wanfw.Orchestrator.PlanOrder

/-!
# The names of a certificate

RENEWAL compares the names that PLAN requires with those of the stored certificate by their sorted and
joined texts. The schema asks of a hostname that it is not empty, no more: one with a comma in it reads
like two. `namesMatch_correct_iff`: the comparison is right unless both lists come to the same parts
between commas, divided among the names in different ways.
-/

namespace Wanfw.Orchestrator

open Wanfw.Js

/-- The names in order, each as its parts between commas. -/
def nameParts (names : List JsString) : List (List JsString) := (sortStrings names).map fun name => split name 44

section Join

variable {c : UInt16} {xs ys : List JsString}

theorem split_join (c : UInt16) (h : xs ≠ []) : split (join xs [c]) c = (xs.map fun x => split x c).flatten := by
  induction xs with
  | nil => exact absurd rfl h
  | cons x xs ih =>
    cases xs with
    | nil => simp [join, List.intercalate]
    | cons y ys =>
      have hjoin : join (x :: y :: ys) [c] = x ++ c :: join (y :: ys) [c] := by simp [join, List.intercalate]
      rw [hjoin, split, List.splitOn_append_cons_self, ← split, ← split, ih (List.cons_ne_nil y ys)]
      rfl

/-- Joined texts are equal when the parts are. -/
theorem join_eq_join_iff (hx : xs ≠ []) (hy : ys ≠ []) :
    join xs [c] = join ys [c] ↔ (xs.map fun x => split x c).flatten = (ys.map fun y => split y c).flatten := by
  rw [← split_join c hx, ← split_join c hy]
  refine ⟨congrArg fun s => split s c, fun h => ?_⟩
  rw [← join_split (join xs [c]) c, h, join_split]

theorem map_split_inj (h : (xs.map fun x => split x c) = ys.map fun y => split y c) : xs = ys := by
  refine List.map_injective_iff.mpr (fun x y hxy => ?_) h
  rw [← join_split x c, hxy, join_split]

end Join

/-! ### The names of PLAN -/

section Plan

variable {env : Env} {ds : DesiredState} {framework : Framework} {g : PlanGraph}

/-- The names that PLAN requires are hostnames of services. -/
theorem certNames_of_planOf (h : planOf env ds framework = .ok (.ok g)) {name : JsString} (hname : name ∈ g.certNames) :
    ∃ s ∈ ds.services, ∃ expose, s.expose = some expose ∧ expose.hostname = name := by
  obtain ⟨net, -, -, hproxy⟩ := planOf_iff.mp h
  obtain ⟨r, rfl, -⟩ := planProxy_congr rfl rfl hproxy
  obtain ⟨-, -, -, -, hnames⟩ := (PlanGraph.empty net).addAll_spec (ds.services.filterMap (planEntry env))
  have hsorted := (sortBy_perm _ _).mem_iff.mp hname
  rw [List.mem_eraseDups, hnames] at hsorted
  obtain ⟨entry, hentry, rfl⟩ := List.mem_map.mp hsorted
  obtain ⟨s, hs, hplanned⟩ := List.mem_filterMap.mp hentry
  refine ⟨s, hs, entry.expose, ?_, rfl⟩
  unfold planEntry at hplanned
  split at hplanned
  · rename_i pluginId expose _ hexpose
    obtain ⟨plan, -, rfl⟩ := Option.map_eq_some_iff.mp hplanned
    exact hexpose
  · cases hplanned

end Plan

/-! ### The comparison -/

theorem namesMatch_textsValue {m : CertMeta} {stored : List JsString} (hm : m.names = textsValue stored) (names : List JsString) :
    namesMatch (some m) names = .ok true ↔ join (sortStrings stored) (js ",") = join (sortStrings names) (js ",") := by
  rw [namesMatch, hm, namesText_str]
  show Except.ok (_ == _) = _ ↔ _
  rw [Except.ok.injEq, beq_iff_eq]

/-- Without a name there is no text, and names that are not empty have one. -/
theorem join_ne_nil {names : List JsString} (hne : names ≠ []) (hnames : ∀ name ∈ names, name ≠ []) (sep : JsString) :
    join names sep ≠ [] := by
  obtain ⟨name, rest, rfl⟩ := List.exists_cons_of_ne_nil hne
  have hname := hnames name List.mem_cons_self
  cases rest with
  | nil => simpa [join, List.intercalate] using hname
  | cons next rest => simp [join, List.intercalate, hname]

/-- The parts of the names and how many each has determine the names. -/
theorem sortStrings_eq_iff_parts {stored names : List JsString} :
    sortStrings stored = sortStrings names ↔ (nameParts stored).flatten = (nameParts names).flatten ∧
      (nameParts stored).map List.length = (nameParts names).map List.length := by
  rw [← List.eq_iff_flatten_eq]
  exact ⟨congrArg _, map_split_inj⟩

/-- The joined texts of lists that have names, none of them empty on the one side, agree when the parts do. -/
theorem join_sortStrings_iff {stored names : List JsString} (hne : names ≠ []) (hnames : ∀ name ∈ names, name ≠ []) :
    join (sortStrings stored) (js ",") = join (sortStrings names) (js ",") ↔
      (nameParts stored).flatten = (nameParts names).flatten := by
  have hsorted : sortStrings names ≠ [] := fun h => hne (List.perm_nil.mp (h ▸ (sortBy_perm _ names).symm))
  have hcomma : js "," = [44] := by decide
  by_cases hstored : sortStrings stored = []
  · have htext := join_ne_nil hsorted (fun name hname => hnames name ((sortBy_perm _ names).mem_iff.mp hname)) (js ",")
    rw [hcomma] at htext
    rw [nameParts, hcomma, hstored, List.map_nil, nameParts, ← split_join 44 hsorted]
    exact iff_of_false htext.symm (List.splitOn_ne_nil _ _).symm
  · rw [hcomma]
    exact join_eq_join_iff hstored hsorted

/-- **The comparison of RENEWAL**, for names that PLAN requires, of which RENEWAL has made sure that there are some: it tells
whether the lists are the same but for their order, unless they come to the same parts, divided in different ways. -/
theorem namesMatch_correct_iff {env : Env} {ds : DesiredState} {framework : Framework} {g : PlanGraph}
    (hplan : planOf env ds framework = .ok (.ok g))
    (hhostname : ∀ s ∈ ds.services, ∀ expose, s.expose = some expose → expose.hostname ≠ []) (hne : g.certNames ≠ [])
    {m : CertMeta} {stored : List JsString} (hm : m.names = textsValue stored) :
    (namesMatch (some m) g.certNames = .ok true ↔ stored.Perm g.certNames) ↔
      ((nameParts stored).flatten = (nameParts g.certNames).flatten →
        (nameParts stored).map List.length = (nameParts g.certNames).map List.length) := by
  have hnames : ∀ name ∈ g.certNames, name ≠ [] := by
    intro name hname
    obtain ⟨s, hs, expose, hexpose, rfl⟩ := certNames_of_planOf hplan hname
    exact hhostname s hs expose hexpose
  rw [namesMatch_textsValue hm, join_sortStrings_iff hne hnames, ← sortStrings_eq_iff, sortStrings_eq_iff_parts]
  exact ⟨fun h hparts => (h.mp hparts).2, fun h => ⟨fun hparts => ⟨hparts, h hparts⟩, And.left⟩⟩

/-- Names without a comma are compared as they should be. -/
theorem namesMatch_of_plain {m : CertMeta} {stored names : List JsString} (hm : m.names = textsValue stored) (hne : names ≠ [])
    (hnames : ∀ name ∈ names, name ≠ []) (hplain : ∀ name ∈ stored ++ names, (44 : UInt16) ∉ name) :
    namesMatch (some m) names = .ok true ↔ stored.Perm names := by
  have hparts : ∀ xs : List JsString, (∀ x ∈ xs, (44 : UInt16) ∉ x) → (nameParts xs).flatten = sortStrings xs := by
    intro xs hxs
    have hmap : nameParts xs = (sortStrings xs).map fun x => [x] :=
      List.map_congr_left fun x hx => split_of_not_mem (hxs x ((sortBy_perm _ xs).mem_iff.mp hx))
    rw [hmap, ← List.flatMap_def, List.flatMap_singleton']
  rw [namesMatch_textsValue hm, join_sortStrings_iff hne hnames, hparts stored fun x hx => hplain x (List.mem_append_left _ hx),
    hparts names fun x hx => hplain x (List.mem_append_right _ hx), sortStrings_eq_iff]

/-! ### A hostname that reads like two -/

/-- A service document with this hostname. -/
def hostDocuments (hostname : JsString) : DesiredState where
  framework := some ⟨some (js "lan"), [], none, none⟩
  services := [⟨js "media", some (js "deploy-docker"), some ⟨hostname, 8096, js "http", none⟩, .null, none⟩]
  errors := []
  nodup := List.nodup_singleton _

/-- A run whose deploy plugin answers. -/
def hostRun : Env := { Env.idle with deployPlan := fun _ _ _ => .ok { image := js "jellyfin" } }

/-- The graph of that run. -/
def hostGraph (hostname : JsString) : PlanGraph :=
  ((PlanGraph.empty none).add (js "media") { image := js "jellyfin" } ⟨hostname, 8096, js "http", none⟩).finish hostRun

theorem planned_host (hostname : JsString) :
    planOf hostRun (hostDocuments hostname) ⟨some (js "lan"), [], none, none⟩ = .ok (.ok (hostGraph hostname)) := rfl

theorem certNames_host (hostname : JsString) : (hostGraph hostname).certNames = [hostname] := by
  have hdups : [hostname].eraseDups = [hostname] := by simp [List.eraseDups_cons]
  show sortStrings ([] ++ [hostname]).eraseDups = [hostname]
  rw [List.nil_append, hdups]
  rfl

/-- What is stored of a certificate for these names. -/
def storedMeta (stored : List JsString) : CertMeta := ⟨js "2026-01-01T00:00:00.000Z", textsValue stored, by decide⟩

/-- A certificate that covers the hostname is left alone. -/
theorem namesMatch_correct_iff_host :
    namesMatch (some (storedMeta [js "media.lan"])) (hostGraph (js "media.lan")).certNames = .ok true ∧
      [js "media.lan"].Perm (hostGraph (js "media.lan")).certNames := by
  have hnames := certNames_host (js "media.lan")
  have hperm : [js "media.lan"].Perm (hostGraph (js "media.lan")).certNames := by rw [hnames]
  refine ⟨?_, hperm⟩
  refine ((namesMatch_correct_iff (planned_host (js "media.lan")) ?_ ?_ rfl).mpr ?_).mpr hperm
  · intro s hs expose hexpose
    cases List.mem_singleton.mp hs
    cases hexpose
    decide
  · rw [hnames]
    exact List.cons_ne_nil _ _
  · rw [hnames]
    exact fun _ => rfl

/-- A service document with the hostname `media.lan,music.lan`, and a certificate for `media.lan` and `music.lan`, which does not
cover that hostname and yet matches. -/
theorem namesMatch_comma :
    planOf hostRun (hostDocuments (js "media.lan,music.lan")) ⟨some (js "lan"), [], none, none⟩ =
      .ok (.ok (hostGraph (js "media.lan,music.lan"))) ∧
    (hostGraph (js "media.lan,music.lan")).certNames = [js "media.lan,music.lan"] ∧
    namesMatch (some (storedMeta [js "media.lan", js "music.lan"])) (hostGraph (js "media.lan,music.lan")).certNames = .ok true ∧
    ¬ [js "media.lan", js "music.lan"].Perm (hostGraph (js "media.lan,music.lan")).certNames := by
  have hnames := certNames_host (js "media.lan,music.lan")
  refine ⟨planned_host _, hnames, ?_, ?_⟩
  · rw [hnames, namesMatch_textsValue rfl]
    decide
  · rw [hnames]
    exact fun h => absurd h.length_eq (by decide)

end Wanfw.Orchestrator
