import Wanfw.Js.Path
import Wanfw.Orchestrator.ValidatePlan

/-!
# Path globs

What the matcher of `host-api/scope-matcher.ts` compares are strings; what a grant means are
subtrees. A path is the list of its segments (`segments`), a pattern names an entry or, with
`/*`, all that is below one, and `matchPathGlob_iff_globMatches` says that the two agree for all
strings. `canonicalizePath_iff` is the spec of the canonical form that both the matcher and the
banners of GATE speak of.
-/

namespace Wanfw.Orchestrator

open Wanfw.Js

/-! ### Segments -/

/-- The non-empty segments of a path between slashes. -/
def segments (path : JsString) : List JsString := (split path 47).filter fun s => 0 < s.length

/-- An absolute path without `.` and `..`. -/
structure Safe (path : JsString) : Prop where
  absolute : startsWith path (js "/") = true
  noDotDot : js ".." ∉ segments path
  noDot : js "." ∉ segments path

/-- What a pattern says about a path, in terms of segments. -/
def GlobMatches (pattern path : JsString) : Prop :=
  Safe path ∧
    ((∃ stem, pattern = stem ++ js "/*" ∧ (stem = [] ∨ Safe stem) ∧ segments stem <+: segments path) ∨
      ((∀ stem, pattern ≠ stem ++ js "/*") ∧ Safe pattern ∧ segments pattern = segments path))

/-- The canonical spelling of a list of segments. -/
def spell (names : List JsString) : JsString := js "/" ++ join names (js "/")

section Segments

variable {path pattern : JsString} {names names' : List JsString}

theorem mem_segments {s : JsString} (h : s ∈ segments path) : s ≠ [] ∧ (47 : UInt16) ∉ s := by
  obtain ⟨hmem, hlength⟩ := List.mem_filter.mp h
  exact ⟨List.ne_nil_of_length_pos (of_decide_eq_true hlength), (mem_split hmem).1⟩

theorem segments_slash (path : JsString) : segments (js "/" ++ path) = segments path := by
  rw [segments, split_slash_cons]
  rfl

theorem segments_append (a b : JsString) : segments (a ++ js "/" ++ b) = segments a ++ segments b := by
  rw [segments, split_slash_append, List.filter_append]
  rfl

/-- The segments of a spelling are what was spelled. -/
theorem segments_spell (h : ∀ s ∈ names, s ≠ [] ∧ (47 : UInt16) ∉ s) : segments (spell names) = names := by
  rw [spell, segments_slash, segments]
  by_cases hnil : names = []
  · rw [hnil]
    rfl
  · have hsplit : split (join names (js "/")) 47 = names := List.splitOn_intercalate _ (fun s hs => (h s hs).2) hnil
    rw [hsplit]
    exact List.filter_eq_self.mpr fun s hs => decide_eq_true (List.length_pos_iff.mpr (h s hs).1)

theorem segments_spell_segments (path : JsString) : segments (spell (segments path)) = segments path :=
  segments_spell fun _ hs => mem_segments hs

theorem startsWith_spell (names : List JsString) : startsWith (spell names) (js "/") = true :=
  startsWith_iff.mpr ⟨join names (js "/"), rfl⟩

/-- **The canonical form** of a path: the spelling of its segments, if it is safe. -/
theorem canonicalizePath_iff {canonical : JsString} :
    canonicalizePath path = some canonical ↔ Safe path ∧ canonical = spell (segments path) := by
  have hdef : canonicalizePath path = if startsWith path (js "/") = true then
      (if js ".." ∈ segments path ∨ js "." ∈ segments path then none else some (spell (segments path))) else none := rfl
  rw [hdef]
  constructor
  · intro h
    split at h
    · split at h
      · cases h
      · rename_i habsolute hdots
        obtain ⟨hdotdot, hdot⟩ := not_or.mp hdots
        exact ⟨⟨habsolute, hdotdot, hdot⟩, (Option.some.inj h).symm⟩
    · cases h
  · rintro ⟨⟨habsolute, hdotdot, hdot⟩, rfl⟩
    rw [if_pos habsolute, if_neg (not_or.mpr ⟨hdotdot, hdot⟩)]

theorem canonicalizePath_eq_none (h : ¬ Safe path) : canonicalizePath path = none := by
  rw [Option.eq_none_iff_forall_ne_some]
  exact fun canonical heq => h (canonicalizePath_iff.mp heq).1

/-- A canonical form is its own. -/
theorem canonicalizePath_canonical {canonical : JsString} (h : canonicalizePath path = some canonical) :
    canonicalizePath canonical = some canonical := by
  obtain ⟨⟨-, hdotdot, hdot⟩, rfl⟩ := canonicalizePath_iff.mp h
  have hsame := segments_spell_segments path
  refine canonicalizePath_iff.mpr ⟨⟨startsWith_spell _, ?_, ?_⟩, ?_⟩
  · rwa [hsame]
  · rwa [hsame]
  · rw [hsame]

end Segments

/-! ### Globs -/

section Globs

variable {path pattern : JsString}

theorem spell_inj {path path' : JsString} :
    spell (segments path) = spell (segments path') ↔ segments path = segments path' := by
  refine ⟨fun h => ?_, congrArg spell⟩
  rw [← segments_spell_segments path, h, segments_spell_segments]

/-- Below a directory, in terms of the spellings: the directory itself or what starts with it and a slash. -/
theorem spell_below_iff {path stem : JsString} :
    spell (segments stem) = js "/" ∨ spell (segments path) = spell (segments stem) ∨
        startsWith (spell (segments path)) (spell (segments stem) ++ js "/") = true ↔
      segments stem <+: segments path := by
  constructor
  · rintro (hroot | hsame | hbelow)
    · have hnil : segments stem = [] := by
        rw [← segments_spell_segments stem, hroot]
        rfl
      rw [hnil]
      exact List.nil_prefix
    · rw [spell_inj.mp hsame]
    · obtain ⟨rest, hrest⟩ := startsWith_iff.mp hbelow
      have hsegments := congrArg segments hrest
      rw [segments_append, segments_spell_segments, segments_spell_segments] at hsegments
      exact ⟨segments rest, hsegments.symm⟩
  · rintro ⟨rest, hrest⟩
    by_cases hroot : segments stem = []
    · rw [hroot]
      exact .inl rfl
    · by_cases hsame : rest = []
      · rw [hsame, List.append_nil] at hrest
        exact .inr (.inl (by rw [hrest]))
      · refine .inr (.inr (startsWith_iff.mpr ⟨join rest (js "/"), ?_⟩))
        rw [← hrest, spell, spell, join_append hroot hsame]
        simp only [List.append_assoc]

/-- The stem of a pattern for a subtree; nothing stands for the root. -/
theorem globStem_append (stem : JsString) : globStem (stem ++ js "/*") = if stem = [] then js "/" else stem := by
  have hends : endsWith (stem ++ js "/*") (js "/*") = true := endsWith_iff.mpr ⟨stem, rfl⟩
  have hlength : (js "/*").length = 2 := rfl
  rw [globStem, if_pos hends, List.length_append, hlength, Nat.add_sub_cancel, List.take_left]
  by_cases hnil : stem = []
  · rw [hnil]
    rfl
  · have hpos := List.length_pos_iff.mpr hnil
    rw [if_neg (by omega), if_neg hnil]

theorem safe_slash : Safe (js "/") := by
  constructor <;> decide

theorem safe_globStem (stem : JsString) : Safe (globStem (stem ++ js "/*")) ↔ stem = [] ∨ Safe stem := by
  rw [globStem_append]
  by_cases hnil : stem = []
  · rw [if_pos hnil]
    exact iff_of_true safe_slash (.inl hnil)
  · rw [if_neg hnil, or_iff_right hnil]

theorem segments_globStem (stem : JsString) : segments (globStem (stem ++ js "/*")) = segments stem := by
  rw [globStem_append]
  split
  · rename_i hnil
    rw [hnil]
    rfl
  · rfl

/-- **The matcher agrees with what a pattern says about segments**, for all strings. -/
theorem matchPathGlob_iff_globMatches (pattern path : JsString) :
    matchPathGlob pattern path = true ↔ GlobMatches pattern path := by
  by_cases hpath : Safe path
  · by_cases hpattern : Safe (globStem pattern)
    · rw [matchPathGlob, canonicalizePath_iff.mpr ⟨hpath, rfl⟩, canonicalizePath_iff.mpr ⟨hpattern, rfl⟩, GlobMatches,
        and_iff_right hpath]
      by_cases hends : endsWith pattern (js "/*") = true
      · obtain ⟨stem, rfl⟩ := endsWith_iff.mp hends
        have hsubtree : (∃ stem', stem ++ js "/*" = stem' ++ js "/*" ∧ (stem' = [] ∨ Safe stem') ∧
            segments stem' <+: segments path) ↔ segments stem <+: segments path := by
          refine ⟨?_, fun h => ⟨stem, rfl, (safe_globStem stem).mp hpattern, h⟩⟩
          rintro ⟨stem', heq, -, h⟩
          rwa [List.append_cancel_right heq]
        have hentry : ¬ ((∀ stem', stem ++ js "/*" ≠ stem' ++ js "/*") ∧ Safe (stem ++ js "/*") ∧
            segments (stem ++ js "/*") = segments path) := fun h => h.1 stem rfl
        dsimp only
        rw [if_pos hends, or_iff_left hentry, hsubtree, Bool.or_eq_true, Bool.or_eq_true, beq_iff_eq, beq_iff_eq, or_assoc,
          segments_globStem]
        exact spell_below_iff
      · have hstem : globStem pattern = pattern := if_neg hends
        have hnone : ∀ stem, pattern ≠ stem ++ js "/*" := fun stem h => hends (endsWith_iff.mpr ⟨stem, h⟩)
        have hsubtree : ¬ ∃ stem, pattern = stem ++ js "/*" ∧ (stem = [] ∨ Safe stem) ∧ segments stem <+: segments path :=
          fun h => h.elim fun stem hstem => hnone stem hstem.1
        rw [hstem] at hpattern ⊢
        dsimp only
        rw [if_neg hends, or_iff_right hsubtree, and_iff_right hnone, and_iff_right hpattern, beq_iff_eq, spell_inj]
        exact eq_comm
    · rw [matchPathGlob, canonicalizePath_iff.mpr ⟨hpath, rfl⟩, canonicalizePath_eq_none hpattern]
      refine iff_of_false Bool.false_ne_true ?_
      rintro ⟨-, ⟨stem, rfl, hstem, -⟩ | ⟨hnone, hsafe, -⟩⟩
      · exact hpattern ((safe_globStem stem).mpr hstem)
      · have hends : ¬ endsWith pattern (js "/*") = true := fun h => (endsWith_iff.mp h).elim hnone
        rw [globStem, if_neg hends] at hpattern
        exact hpattern hsafe
  · rw [matchPathGlob, canonicalizePath_eq_none hpath]
    exact iff_of_false Bool.false_ne_true fun h => hpath h.1

/-- What matches a pattern is in the subtree that the pattern names. -/
theorem GlobMatches.inside (h : GlobMatches pattern path) :
    Safe path ∧ Safe (globStem pattern) ∧ segments (globStem pattern) <+: segments path := by
  obtain ⟨hpath, ⟨stem, rfl, hstem, hprefix⟩ | ⟨hnone, hpattern, hsame⟩⟩ := h
  · exact ⟨hpath, (safe_globStem stem).mpr hstem, segments_globStem stem ▸ hprefix⟩
  · have hends : ¬ endsWith pattern (js "/*") = true := fun h => (endsWith_iff.mp h).elim hnone
    rw [globStem, if_neg hends]
    exact ⟨hpath, hpattern, hsame ▸ List.prefix_rfl⟩

end Globs

/-! ### Grants -/

/-- The patterns in the paths of a scope. -/
def scopePatterns (scope : Json) : List JsString :=
  match scopeField scope (js "paths") with
  | .ok (.arr patterns) => patterns.filterMap fun
    | .str pattern => some pattern
    | _ => none
  | _ => []

/-- A grant of the capability names a subtree that the path is in. -/
def WithinGrant (grants : List Grant) (cap path : JsString) : Prop :=
  Safe path ∧ ∃ g ∈ grants, g.cap = cap ∧ ∃ pattern ∈ scopePatterns g.scope,
    Safe (globStem pattern) ∧ segments (globStem pattern) <+: segments path

section Accepted

variable {sha256 : List UInt8 → JsString} {serviceId : JsString} {spec : ContainerSpec} {grants : List Grant}
  {result : ValidationResult}

theorem withinGrant_of_hasGrant {cap path : JsString}
    (h : hasGrant grants cap (fun scope => do matchAnyPathGlob (← scopeField scope (js "paths")) path) = .ok true) :
    WithinGrant grants cap path := by
  obtain ⟨g, hg, hcap, hmatch⟩ := hasGrant_ok_true h
  obtain ⟨patterns, hfield, hany⟩ := except_bind_ok.mp hmatch
  obtain ⟨ps, hps, hsome⟩ := except_bind_ok.mp hany
  obtain ⟨p, hp, hone⟩ := someE_ok_true hsome
  obtain ⟨pattern, htext, hglob⟩ := except_bind_ok.mp hone
  have harray : patterns = .arr ps := by
    cases patterns with
    | arr xs => cases hps; rfl
    | _ => cases hps
  have hstr : p = .str pattern := by
    cases p with
    | str s => cases htext; rfl
    | _ => cases htext
  have hmatches := (matchPathGlob_iff_globMatches pattern path).mp (Except.ok.inj hglob)
  obtain ⟨hpath, hstem, hprefix⟩ := hmatches.inside
  refine ⟨hpath, g, hg, hcap, pattern, ?_, hstem, hprefix⟩
  rw [scopePatterns, hfield, harray]
  exact List.mem_filterMap.mpr ⟨p, hp, by rw [hstr]⟩

theorem Accepted.bind (h : Accepted serviceId spec grants) {m : MountSpec} (hm : m ∈ spec.mountList) (hbind : m.type = .bind) :
    WithinGrant grants (js "docker.mount.bind") m.source := by
  have hcheck := h.mounts m hm
  rw [checkMount, hbind] at hcheck
  exact withinGrant_of_hasGrant (requireGrant_ok_nil.mp hcheck)

theorem Accepted.device (h : Accepted serviceId spec grants) {device : JsString} (hdevice : device ∈ spec.devices.getD []) :
    WithinGrant grants (js "docker.device") device := by
  have hcheck := h.devices device hdevice
  rw [checkDevice] at hcheck
  split at hcheck
  · exact withinGrant_of_hasGrant (requireGrant_ok_nil.mp hcheck)
  · cases hcheck

/-- **What path globs mean**: the matcher follows the segments for all strings, a canonical form is its own, and the bind
sources and the devices of an accepted plan are in subtrees that grants name. -/
theorem path_globs :
    (∀ pattern path, matchPathGlob pattern path = true ↔ GlobMatches pattern path) ∧
      (∀ path canonical, canonicalizePath path = some canonical → canonicalizePath canonical = some canonical) ∧
      ∀ sha256 serviceId spec grants result, validateContainerSpec sha256 serviceId spec grants = .ok result →
        result.ok = true →
          (∀ m ∈ spec.mountList, m.type = .bind → WithinGrant grants (js "docker.mount.bind") m.source) ∧
            ∀ device ∈ spec.devices.getD [], WithinGrant grants (js "docker.device") device := by
  refine ⟨matchPathGlob_iff_globMatches, fun _ _ => canonicalizePath_canonical, ?_⟩
  intro sha256 serviceId spec grants result hvalidate hok
  have haccepted := accepted_of_ok hvalidate hok
  exact ⟨fun m hm hbind => haccepted.bind hm hbind, fun device hdevice => haccepted.device hdevice⟩

end Accepted

end Wanfw.Orchestrator
