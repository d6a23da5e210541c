import Wanfw.Orchestrator.Gate

/-!
# The three classifiers

A container plan is classified in three places: `validateContainerSpec` sets a flag on its way
through the fields, `validateCoreEmittedSpec` (`validate/core-authority.ts`) takes one boolean
expression for the plans the orchestrator itself emits, and GATE computes a projection hash of
its own for a plan that has none.

`runValidateContainerSpec` is `validateContainerSpec` with its local variables, one statement after
the other; it computes the same result (`runValidateContainerSpec_eq`). `classifiers_agree`: the
three agree on every plan, and the grants have no part in it.
-/

namespace Wanfw.Orchestrator

open Wanfw.Js Wanfw.Schemas

/-! ### `validateContainerSpec`, statement by statement -/

/-- The local variables of `validateContainerSpec`. -/
structure Checking where
  violations : List FieldViolation
  powerful : Bool

/-- `powerful = true`. -/
def setPowerful : Act Checking Unit := Act.modify fun s => { s with powerful := true }

/-- `violations.push(…)` for what a check found. -/
def pushViolations (check : Except JsError (List FieldViolation)) : Act Checking Unit := do
  let found ← Act.ofExcept check
  Act.modify fun s => { s with violations := s.violations ++ found }

/-- The statements for a powerful field that is used. -/
def powerfulField (check : Except JsError (List FieldViolation)) : Act Checking Unit := do
  setPowerful
  pushViolations check

/-- `if (used) { … }`, for a powerful field. -/
def ifUsed (used : Bool) (check : Except JsError (List FieldViolation)) : Act Checking Unit :=
  if used then powerfulField check else pure ()

/-- The body of the loop over the mounts. -/
def mountStatement (serviceId : JsString) (grants : List Grant) (mount : MountSpec) : Act Checking Unit :=
  match mount.type with
  | .volume => pushViolations (checkMount serviceId grants mount)
  | .bind => powerfulField (checkMount serviceId grants mount)

/-- The statements that look at the fields. -/
def fieldStatements (serviceId : JsString) (spec : ContainerSpec) (grants : List Grant) : Act Checking Unit := do
  pushViolations (checkImage spec grants)
  Act.forEach (spec.mounts.getD []) (mountStatement serviceId grants)
  Act.forEach (spec.devices.getD []) fun device => powerfulField (checkDevice grants device)
  ifUsed (spec.networkMode == some (js "host")) (checkNetworkMode spec grants)
  ifUsed (spec.privileged.getD false) (checkPrivileged spec grants)
  Act.forEach (spec.capAdd.getD []) fun cap => powerfulField (checkCapability grants cap)
  ifUsed (spec.ports.any fun ports => 0 < ports.length) (checkPorts spec grants)
  Act.forEach (spec.networks.getD []) fun network => pushViolations (checkNetwork serviceId network)

section

variable (sha256 : List UInt8 → JsString)

/-- `validateContainerSpec`, with its local variables. -/
def runValidateContainerSpec (serviceId : JsString) (spec : ContainerSpec) (grants : List Grant) :
    Except JsError ValidationResult :=
  match fieldStatements serviceId spec grants ⟨[], false⟩ with
  | (.error e, _) => .error e
  | (.ok (), s) => .ok {
      ok := s.violations.length = 0
      tier := if s.powerful then .powerful else .baseline
      violations := s.violations
      warnings := (Obj.keys (spec.env.getD [])).flatMap envWarning
      projectionHash :=
        if s.powerful then
          some (computePowerfulProjectionHash sha256 {
            serviceId := serviceId
            image := spec.image
            mounts := ((spec.mounts.getD []).filter fun m => m.type = .bind).map fun m =>
              ⟨m.source, m.target, m.readOnly.getD false⟩
            devices := spec.devices.getD []
            networkMode := if spec.networkMode = some (js "host") then some (js "host") else none
            privileged := spec.privileged.getD false
            capAdd := spec.capAdd.getD []
            publishedPorts := spec.ports.getD [] })
        else none }

/-- `validateCoreEmittedSpec`. -/
def validateCoreEmittedSpec (serviceId : JsString) (spec : ContainerSpec) : ValidationResult :=
  let powerful : Bool :=
    spec.privileged.getD false || spec.networkMode == some (js "host") || (spec.devices.any fun devices => 0 < devices.length) ||
      (spec.capAdd.any fun capAdd => 0 < capAdd.length) || (spec.ports.any fun ports => 0 < ports.length) ||
      (spec.mounts.getD []).any fun m => m.type = .bind
  { ok := true
    tier := if powerful then .powerful else .baseline
    violations := []
    warnings := []
    projectionHash :=
      if powerful then
        some (computePowerfulProjectionHash sha256 {
          serviceId := serviceId
          image := spec.image
          mounts := ((spec.mounts.getD []).filter fun m => m.type = .bind).map fun m =>
            ⟨m.source, m.target, m.readOnly.getD false⟩
          devices := spec.devices.getD []
          networkMode := if spec.networkMode = some (js "host") then some (js "host") else none
          privileged := spec.privileged.getD false
          capAdd := spec.capAdd.getD []
          publishedPorts := spec.ports.getD [] })
      else none }

end

/-! ### What a statement adds -/

theorem collectE_cons {α β : Type} (f : α → Except JsError (List β)) (x : α) (xs : List α) :
    collectE f (x :: xs) = f x >>= fun ys => collectE f xs >>= fun zs => pure (ys ++ zs) := by
  rw [collectE]
  cases f x with
  | error e => rfl
  | ok ys => cases hxs : collectE f xs <;> rfl

/-- A statement that pushes what a check finds, and sets `powerful` if the flag says so. -/
structure Adds (m : Act Checking Unit) (check : Except JsError (List FieldViolation)) (flag : Bool) : Prop where
  returns : ∀ found, check = .ok found → ∀ s, m s = (.ok (), ⟨s.violations ++ found, s.powerful || flag⟩)
  throws : ∀ e, check = .error e → ∀ s, (m s).1 = .error e

namespace Adds

variable {m m' : Act Checking Unit} {check check' : Except JsError (List FieldViolation)} {flag flag' : Bool}

theorem seq (h : Adds m check flag) (h' : Adds m' check' flag') :
    Adds (m >>= fun _ => m') (check >>= fun found => check' >>= fun found' => pure (found ++ found')) (flag || flag') where
  returns both hboth s := by
    obtain ⟨found, hfound, hboth⟩ := except_bind_ok.mp hboth
    obtain ⟨found', hfound', hboth⟩ := except_bind_ok.mp hboth
    cases hboth
    rw [Act.bind_apply, h.returns found hfound, ← List.append_assoc, ← Bool.or_assoc]
    exact h'.returns found' hfound' _
  throws e he s := by
    rw [Act.bind_apply]
    rcases except_bind_error.mp he with he | ⟨found, hfound, he⟩
    · have hm := h.throws e he s
      cases hr : m s with
      | mk r s' =>
        rw [hr] at hm
        cases hm
        rfl
    · rcases except_bind_error.mp he with he | ⟨_, _, he⟩
      · rw [h.returns found hfound]
        exact h'.throws e he _
      · cases he

theorem push (check : Except JsError (List FieldViolation)) : Adds (pushViolations check) check false where
  returns found hfound s := by simp [pushViolations, hfound, Act.bind_apply, Act.ofExcept, Act.modify]
  throws e he s := by simp [pushViolations, he, Act.bind_apply, Act.ofExcept]

theorem powerfulField (check : Except JsError (List FieldViolation)) : Adds (powerfulField check) check true where
  returns found hfound s := by
    simp [Orchestrator.powerfulField, pushViolations, setPowerful, hfound, Act.bind_apply, Act.ofExcept, Act.modify]
  throws e he s := by
    simp [Orchestrator.powerfulField, pushViolations, setPowerful, he, Act.bind_apply, Act.ofExcept, Act.modify]

/-- A check finds nothing when its field is not used. -/
theorem ifUsed {used : Bool} (hnot : used = false → check = .ok []) : Adds (ifUsed used check) check used := by
  cases used with
  | true => exact powerfulField check
  | false =>
    rw [hnot rfl]
    exact ⟨fun found hfound s => by cases hfound; simp [Orchestrator.ifUsed], fun e he => by cases he⟩

/-- A loop over the elements of a field. -/
theorem loop {α : Type} (xs : List α) {body : α → Act Checking Unit} {check : α → Except JsError (List FieldViolation)}
    {used : α → Bool} (h : ∀ x, Adds (body x) (check x) (used x)) :
    Adds (Act.forEach xs body) (collectE check xs) (xs.any used) := by
  induction xs with
  | nil => exact ⟨fun found hfound s => by cases hfound; simp [Act.forEach], fun e he => by cases he⟩
  | cons x xs ih =>
    rw [collectE_cons, List.any_cons]
    exact (h x).seq ih

end Adds

section

variable {sha256 : List UInt8 → JsString} {serviceId : JsString} {spec : ContainerSpec} {grants : List Grant}

theorem any_true {α : Type} (xs : List α) : (xs.any fun _ => true) = !xs.isEmpty := by cases xs <;> rfl

theorem any_false {α : Type} (xs : List α) : (xs.any fun _ => false) = false := by simp

theorem any_length {α : Type} (xs : Option (List α)) : (xs.any fun xs => 0 < xs.length) = !(xs.getD []).isEmpty := by
  rcases xs with _ | _ | _ <;> rfl

theorem privileged_eq (spec : ContainerSpec) : spec.privileged.getD false = (spec.privileged == some true) := by
  rcases spec.privileged with _ | _ | _ <;> rfl

/-- The flag as the statements set it is the expression for it. -/
theorem isPowerful_eq (spec : ContainerSpec) : (false || ((spec.mounts.getD []).any (fun m => m.type = .bind) ||
    ((spec.devices.getD []).any (fun _ => true) || (spec.networkMode == some (js "host") || (spec.privileged.getD false ||
      ((spec.capAdd.getD []).any (fun _ => true) || (spec.ports.any (fun ports => 0 < ports.length) ||
        (spec.networks.getD []).any fun _ => false))))))) = spec.isPowerful := by
  rw [any_true, any_true, any_length, privileged_eq, any_false, ContainerSpec.isPowerful, ContainerSpec.mountList,
    ContainerSpec.isHost]
  simp only [Bool.or_false, Bool.false_or, Bool.or_assoc, beq_eq_decide]

theorem checkNetworkMode_unused (spec : ContainerSpec) (grants : List Grant) (h : (spec.networkMode == some (js "host")) = false) : checkNetworkMode spec grants = .ok [] := by
  rw [checkNetworkMode, ContainerSpec.isHost, if_neg]
  simpa using h

theorem checkPrivileged_unused (spec : ContainerSpec) (grants : List Grant) (h : spec.privileged.getD false = false) : checkPrivileged spec grants = .ok [] := by
  rw [checkPrivileged, if_neg]
  rw [privileged_eq] at h
  simpa using h

theorem checkPorts_unused (spec : ContainerSpec) (grants : List Grant) (h : (spec.ports.any fun ports => 0 < ports.length) = false) : checkPorts spec grants = .ok [] := by
  rw [any_length, Bool.not_eq_false', List.isEmpty_iff] at h
  rw [checkPorts, h]

/-- The statements compute the violations, and whether the plan is powerful. -/
theorem fieldStatements_adds : Adds (fieldStatements serviceId spec grants) (violationsOf serviceId spec grants) spec.isPowerful := by
  have hmount : ∀ m, Adds (mountStatement serviceId grants m) (checkMount serviceId grants m) (m.type = .bind) := by
    intro m
    unfold mountStatement
    cases m.type with
    | volume => exact .push _
    | bind => exact .powerfulField _
  have hall := (Adds.push (checkImage spec grants)).seq <| (Adds.loop (spec.mounts.getD []) hmount).seq <|
    (Adds.loop (spec.devices.getD []) fun d => .powerfulField (checkDevice grants d)).seq <|
    (Adds.ifUsed (checkNetworkMode_unused spec grants)).seq <| (Adds.ifUsed (checkPrivileged_unused spec grants)).seq <|
    (Adds.loop (spec.capAdd.getD []) fun c => .powerfulField (checkCapability grants c)).seq <|
    (Adds.ifUsed (checkPorts_unused spec grants)).seq (Adds.loop (spec.networks.getD []) fun n => .push (checkNetwork serviceId n))
  rw [isPowerful_eq] at hall
  unfold violationsOf fieldStatements
  convert hall using 1
  simp only [bind_assoc, pure_bind, List.append_assoc]
  rfl

/-- **The statements compute the result.** -/
theorem runValidateContainerSpec_eq :
    runValidateContainerSpec sha256 serviceId spec grants = validateContainerSpec sha256 serviceId spec grants := by
  unfold runValidateContainerSpec validateContainerSpec
  cases hv : violationsOf serviceId spec grants with
  | error e =>
    have he := fieldStatements_adds.throws e hv ⟨[], false⟩
    cases hr : fieldStatements serviceId spec grants ⟨[], false⟩ with
    | mk r s =>
      rw [hr] at he
      cases he
      rfl
  | ok found =>
    rw [fieldStatements_adds.returns found hv]
    have hok : decide (found.length = 0) = found.isEmpty := by cases found <;> rfl
    simp only [List.nil_append, Bool.false_or, hok, resultOf, projectionInputOf, ContainerSpec.isHost, ContainerSpec.binds,
      ContainerSpec.mountList, decide_eq_true_eq, pure, Except.pure, bind, Except.bind]

/-- The core's classification is that of the result for any violations. -/
theorem validateCoreEmittedSpec_eq (sha256 : List UInt8 → JsString) (serviceId : JsString) (spec : ContainerSpec)
    (violations : List FieldViolation) :
    (validateCoreEmittedSpec sha256 serviceId spec).tier = (resultOf sha256 serviceId spec violations).tier ∧
      (validateCoreEmittedSpec sha256 serviceId spec).projectionHash = (resultOf sha256 serviceId spec violations).projectionHash := by
  have hpowerful : (spec.privileged.getD false || spec.networkMode == some (js "host") ||
      (spec.devices.any fun devices => 0 < devices.length) || (spec.capAdd.any fun capAdd => 0 < capAdd.length) ||
      (spec.ports.any fun ports => 0 < ports.length) || (spec.mounts.getD []).any fun m => m.type = .bind) = spec.isPowerful := by
    rw [any_length, any_length, any_length, privileged_eq, ContainerSpec.isPowerful, ContainerSpec.mountList, ContainerSpec.isHost]
    simp only [beq_eq_decide]
    ac_rfl
  rw [validateCoreEmittedSpec, hpowerful]
  simp [resultOf, projectionInputOf, ContainerSpec.isHost, ContainerSpec.binds, ContainerSpec.mountList]

end

/-! ### Scopes of the types the source expects -/

/-- The field `k` of a scope is absent, or an array of strings. -/
def StringsAt (scope : Json) (k : JsString) : Prop := ∃ xs : List JsString, scopeField scope k = .ok (.arr (xs.map .str))

/-- The scope has the types that `validateContainerSpec` casts it to. -/
structure Grant.Typed (g : Grant) : Prop where
  repos : g.cap = js "docker.image.pull" → StringsAt g.scope (js "repos")
  paths : g.cap = js "docker.mount.bind" ∨ g.cap = js "docker.device" → StringsAt g.scope (js "paths")
  caps : g.cap = js "docker.capabilities" → StringsAt g.scope (js "caps")
  ports : g.cap = js "docker.ports.publish" → ∃ xs : List Decimal, scopeField g.scope (js "ports") = .ok (.arr (xs.map .num))

theorem someE_returns {α : Type} {f : α → Except JsError Bool} {xs : List α} (h : ∀ x ∈ xs, ∃ b, f x = .ok b) :
    ∃ b, someE f xs = .ok b := by
  induction xs with
  | nil => exact ⟨_, rfl⟩
  | cons x xs ih =>
    obtain ⟨b, hb⟩ := h x List.mem_cons_self
    rw [someE, hb]
    cases b with
    | true => exact ⟨_, rfl⟩
    | false => exact ih fun y hy => h y (List.mem_cons_of_mem x hy)

theorem collectE_returns {α β : Type} {f : α → Except JsError (List β)} {xs : List α} (h : ∀ x ∈ xs, ∃ ys, f x = .ok ys) :
    ∃ ys, collectE f xs = .ok ys := by
  induction xs with
  | nil => exact ⟨_, rfl⟩
  | cons x xs ih =>
    obtain ⟨ys, hys⟩ := h x List.mem_cons_self
    obtain ⟨zs, hzs⟩ := ih fun y hy => h y (List.mem_cons_of_mem x hy)
    exact ⟨ys ++ zs, by rw [collectE, hys, hzs]⟩

theorem requireGrant_returns {grants : List Grant} {field cap message : JsString} {p : Json → Except JsError Bool}
    (h : ∀ g ∈ grants, g.cap = cap → ∃ b, p g.scope = .ok b) : ∃ found, requireGrant grants field cap p message = .ok found := by
  have hgrant : ∃ b, hasGrant grants cap p = .ok b := by
    refine someE_returns fun g hg => ?_
    by_cases hcap : g.cap = cap
    · rw [if_pos hcap]
      exact h g hg hcap
    · exact ⟨false, if_neg hcap⟩
  obtain ⟨b, hb⟩ := hgrant
  rw [requireGrant, hb]
  cases b with
  | true => exact ⟨_, rfl⟩
  | false => exact ⟨_, rfl⟩

theorem someE_strings (name : JsString) (p : JsString → Bool) (xs : List JsString) :
    ∃ b, someE (fun v => do
      let pattern ← patternText name v
      return p pattern) (xs.map .str) = .ok b := by
  refine someE_returns fun v hv => ?_
  obtain ⟨s, -, rfl⟩ := List.mem_map.mp hv
  exact ⟨p s, rfl⟩

theorem matchNamePrefix_returns (xs : List JsString) (name : JsString) : ∃ b, matchNamePrefix (.arr (xs.map .str)) name = .ok b :=
  someE_strings (js "p") (fun pattern => matchNamePattern pattern name) xs

theorem matchAnyPathGlob_returns (xs : List JsString) (path : JsString) : ∃ b, matchAnyPathGlob (.arr (xs.map .str)) path = .ok b :=
  someE_strings (js "pattern") (fun pattern => matchPathGlob pattern path) xs

theorem matchPortRange_returns (xs : List Json) (requested : List Decimal) : ∃ b, matchPortRange (.arr xs) requested = .ok b :=
  ⟨_, everyE_pure (fun port => xs.any fun y => y.strictEq (.num port)) requested⟩

section

variable {sha256 : List UInt8 → JsString} {serviceId : JsString} {spec : ContainerSpec} {grants : List Grant}

/-- With scopes of the expected types every check returns. -/
theorem violationsOf_returns (h : ∀ g ∈ grants, g.Typed) : ∃ found, violationsOf serviceId spec grants = .ok found := by
  have himage : ∃ found, checkImage spec grants = .ok found := by
    refine requireGrant_returns fun g hg hcap => ?_
    obtain ⟨xs, hxs⟩ := (h g hg).repos hcap
    rw [hxs]
    exact matchNamePrefix_returns xs _
  have hpath : ∀ field cap message path, cap = js "docker.mount.bind" ∨ cap = js "docker.device" →
      ∃ found, requireGrant grants field cap (fun scope => do matchAnyPathGlob (← scopeField scope (js "paths")) path) message =
        .ok found := by
    intro field cap message path hor
    refine requireGrant_returns fun g hg hcap => ?_
    obtain ⟨xs, hxs⟩ := (h g hg).paths (by rwa [hcap])
    rw [hxs]
    exact matchAnyPathGlob_returns xs _
  have hmount : ∃ found, collectE (checkMount serviceId grants) spec.mountList = .ok found := by
    refine collectE_returns fun m _ => ?_
    unfold checkMount
    cases m.type with
    | volume => exact ⟨_, rfl⟩
    | bind => exact hpath _ _ _ _ (.inl rfl)
  have hdevice : ∃ found, collectE (checkDevice grants) (spec.devices.getD []) = .ok found := by
    refine collectE_returns fun d _ => ?_
    unfold checkDevice
    split
    · exact hpath _ _ _ _ (.inr rfl)
    · exact ⟨_, rfl⟩
  have hnetworkMode : ∃ found, checkNetworkMode spec grants = .ok found := by
    unfold checkNetworkMode
    split
    · exact requireGrant_returns fun _ _ _ => ⟨_, rfl⟩
    · exact ⟨_, rfl⟩
  have hprivileged : ∃ found, checkPrivileged spec grants = .ok found := by
    unfold checkPrivileged
    split
    · exact requireGrant_returns fun _ _ _ => ⟨_, rfl⟩
    · exact ⟨_, rfl⟩
  have hcap : ∃ found, collectE (checkCapability grants) (spec.capAdd.getD []) = .ok found := by
    refine collectE_returns fun c _ => requireGrant_returns fun g hg hcap => ?_
    obtain ⟨xs, hxs⟩ := (h g hg).caps hcap
    rw [hxs]
    exact ⟨_, rfl⟩
  have hports : ∃ found, checkPorts spec grants = .ok found := by
    unfold checkPorts
    cases spec.ports.getD [] with
    | nil => exact ⟨_, rfl⟩
    | cons port ports =>
      refine requireGrant_returns fun g hg hcap => ?_
      obtain ⟨xs, hxs⟩ := (h g hg).ports hcap
      rw [hxs]
      exact matchPortRange_returns _ _
  have hnetworks : ∃ found, collectE (checkNetwork serviceId) (spec.networks.getD []) = .ok found :=
    collectE_returns fun n _ => ⟨_, rfl⟩
  obtain ⟨image, himage⟩ := himage
  obtain ⟨mounts, hmount⟩ := hmount
  obtain ⟨devices, hdevice⟩ := hdevice
  obtain ⟨networkMode, hnetworkMode⟩ := hnetworkMode
  obtain ⟨privileged, hprivileged⟩ := hprivileged
  obtain ⟨capAdd, hcap⟩ := hcap
  obtain ⟨ports, hports⟩ := hports
  obtain ⟨networks, hnetworks⟩ := hnetworks
  rw [violationsOf, himage, hmount, hdevice, hnetworkMode, hprivileged, hcap, hports, hnetworks]
  exact ⟨_, rfl⟩

/-- The classification of a result. -/
def ValidationResult.classification (r : ValidationResult) : Classification := ⟨r.tier, r.projectionHash⟩

theorem runValidateContainerSpec_ok {r : ValidationResult} (h : runValidateContainerSpec sha256 serviceId spec grants = .ok r) :
    r.classification = (validateCoreEmittedSpec sha256 serviceId spec).classification := by
  rw [runValidateContainerSpec_eq] at h
  obtain ⟨violations, -, rfl⟩ := validateContainerSpec_eq h
  have hcore := validateCoreEmittedSpec_eq sha256 serviceId spec violations
  rw [ValidationResult.classification, ValidationResult.classification, hcore.1, hcore.2]

/-- A powerful plan has the hash that GATE computes for a plan without one. -/
theorem validateCoreEmittedSpec_hash (h : (validateCoreEmittedSpec sha256 serviceId spec).tier = .powerful) (tier : FieldTier) :
    (validateCoreEmittedSpec sha256 serviceId spec).projectionHash = some (gateProjectionHash sha256 ⟨tier, none⟩ serviceId spec) := by
  rw [(validateCoreEmittedSpec_eq sha256 serviceId spec []).1, resultOf] at h
  rw [(validateCoreEmittedSpec_eq sha256 serviceId spec []).2, resultOf]
  split at h
  · rename_i hpowerful
    exact if_pos hpowerful
  · cases h

end

/-- **The three classifiers agree.** Whatever the grants, what `validateContainerSpec` returns has the tier and the hash of
`validateCoreEmittedSpec`, and GATE's own hash is that of a powerful plan. With scopes of the expected types it returns. -/
theorem classifiers_agree (sha256 : List UInt8 → JsString) (serviceId : JsString) (spec : ContainerSpec) (grants : List Grant) :
    (∀ r, runValidateContainerSpec sha256 serviceId spec grants = .ok r →
      r.tier = (validateCoreEmittedSpec sha256 serviceId spec).tier ∧
        r.projectionHash = (validateCoreEmittedSpec sha256 serviceId spec).projectionHash) ∧
    ((validateCoreEmittedSpec sha256 serviceId spec).tier = .powerful → ∀ tier,
      (validateCoreEmittedSpec sha256 serviceId spec).projectionHash =
        some (gateProjectionHash sha256 ⟨tier, none⟩ serviceId spec)) ∧
    (∀ grants' r r', runValidateContainerSpec sha256 serviceId spec grants = .ok r →
      runValidateContainerSpec sha256 serviceId spec grants' = .ok r' → r.tier = r'.tier ∧ r.projectionHash = r'.projectionHash) ∧
    ((∀ g ∈ grants, g.Typed) → ∃ r, runValidateContainerSpec sha256 serviceId spec grants = .ok r) := by
  refine ⟨fun r hr => ?_, validateCoreEmittedSpec_hash, fun grants' r r' hr hr' => ?_, fun htyped => ?_⟩
  · have hcore := runValidateContainerSpec_ok hr
    exact ⟨congrArg Classification.tier hcore, congrArg Classification.projectionHash hcore⟩
  · have hcore := (runValidateContainerSpec_ok hr).trans (runValidateContainerSpec_ok hr').symm
    exact ⟨congrArg Classification.tier hcore, congrArg Classification.projectionHash hcore⟩
  · obtain ⟨found, hfound⟩ := violationsOf_returns htyped
    rw [runValidateContainerSpec_eq, validateContainerSpec, hfound]
    exact ⟨_, rfl⟩

end Wanfw.Orchestrator
