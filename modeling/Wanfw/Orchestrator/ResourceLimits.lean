import Wanfw.Orchestrator.Cidr
import Wanfw.Orchestrator.ValidatePlan

/-!
# Resource limits

`execute/ensure.ts` reads the texts `resources.memory` and `resources.cpus` of a plan as numbers,
and `execute/docker-client.ts` puts them into the request that creates the container. The daemon
reads the two fields as 64-bit integers; a field that is absent, `null` or 0 is no limit.

A text that is no number is read as 0 (`0.5g`) or as `NaN` and left out, an infinity is written as
`null`, and a small share of a processor is rounded to 0: each of these creates a container without
the limit it declares. `failClosed_iff` says for which texts that does not happen.

The arithmetic of the language is a parameter: numbers are kept in their shortest decimal form, and
`near` finds the one nearest to a decimal.
-/

namespace Wanfw.Orchestrator

open Wanfw.Js

/-! ### Numbers -/

/-- The arithmetic of the language. -/
structure Doubles where
  /-- The number nearest to a decimal. -/
  near : Decimal → JsNumber
  /-- `x * y`. -/
  mul : JsNumber → JsNumber → JsNumber
  /-- Multiplying by a power of two does not round. -/
  mul_scale : ∀ n i : ℕ, i ≤ 3 → mul (near (.ofNat n)) (.finite (.ofNat (1024 ^ i))) = near (.ofNat (n * 1024 ^ i))
  /-- An infinity stays one. -/
  mul_infinity : ∀ neg n, 0 < n → mul (.infinity neg) (.finite (.ofNat n)) = .infinity neg

/-- Whether a number counts as true. -/
def numberTruthy : JsNumber → Bool
  | .nan => false
  | .infinity _ => true
  | .finite d => d.digits ≠ 0

/-- `Math.round(x)`. -/
def mathRound : JsNumber → JsNumber
  | .finite d => .finite (.ofInt ⌊d.toRat + 1 / 2⌋)
  | x => x

/-- A number as a member of a JSON text: `undefined` makes none, and what is not finite is written as `null`. -/
def jsonNumber : Option JsNumber → Option Json
  | none => none
  | some (.finite d) => some (.num d)
  | some _ => some .null

section Source

variable (D : Doubles)

/-- `Number(text)`. -/
def numberOf (text : JsString) : JsNumber :=
  match toNumber .exact text with
  | some d => D.near d
  | none =>
    if trim text = js "Infinity" ∨ trim text = js "+Infinity" then .infinity false
    else if trim text = js "-Infinity" then .infinity true
    else .nan

/-! ### The source -/

/-- The exponent of 1024 for a unit. -/
def unitExponent : JsString → Option ℕ
  | [] => some 0
  | [107] | [75] => some 1
  | [109] | [77] => some 2
  | [103] | [71] => some 3
  | _ => none

/-- `/^(\d+)([kKmMgG]?)$/`: the digits, and the exponent of 1024 for the unit. -/
def memoryPattern (t : JsString) : Option (JsString × ℕ) :=
  if t.takeWhile digit = [] then none else (unitExponent (t.dropWhile digit)).map fun i => (t.takeWhile digit, i)

/-- `parseMemory`. -/
def parseMemory (mem : JsString) : JsNumber :=
  match memoryPattern (trim mem) with
  | none => if numberTruthy (numberOf D mem) then numberOf D mem else .finite 0
  | some (digits, i) => D.mul (D.near (.ofNat (digitsValue digits))) (.finite (.ofNat (1024 ^ i)))

/-- `NanoCpus`, of the option `cpus`. -/
def nanoCpus (cpus : JsNumber) : Option JsNumber :=
  if numberTruthy cpus then some (mathRound (D.mul cpus (.finite (.ofNat (10 ^ 9))))) else none

/-- The limits of the request, as far as they are written. -/
structure HostLimits where
  memory : Option Json
  nanoCpus : Option Json

/-- The options `memory` and `cpus` of `ensureContainer`, and the fields `createContainer` makes of them. -/
def hostLimits (resources : Resources) : HostLimits where
  memory := jsonNumber ((resources.memory.filter fun text => text ≠ []).map fun text => parseMemory D text)
  nanoCpus := jsonNumber (((resources.cpus.filter fun text => text ≠ []).map fun text => numberOf D text).bind (nanoCpus D))

end Source

/-! ### The daemon -/

/-- Whether an integer has 64 bits. -/
def IsInt64 (i : ℤ) : Prop := -2 ^ 63 ≤ i ∧ i < 2 ^ 63

instance (i : ℤ) : Decidable (IsInt64 i) := inferInstanceAs (Decidable (_ ∧ _))

/-- What the daemon reads in a field; `none` is an error. -/
def int64Field : Option Json → Option ℤ
  | none => some 0
  | some .null => some 0
  | some (.num d) => (intOf d).filter fun i => IsInt64 i
  | some _ => none

/-- The limits of a container. -/
structure ContainerLimits where
  memory : ℤ
  nanoCpus : ℤ
  deriving DecidableEq

/-- A daemon: it creates a container or fails, and a container has the limits of its request. -/
structure LimitsDaemon where
  create : HostLimits → Option ContainerLimits
  reads : ∀ {request limits}, create request = some limits →
    int64Field request.memory = some limits.memory ∧ int64Field request.nanoCpus = some limits.nanoCpus

/-- The daemon that creates whatever it can read. -/
def LimitsDaemon.lenient : LimitsDaemon where
  create request := do
    let memory ← int64Field request.memory
    let nanoCpus ← int64Field request.nanoCpus
    return ⟨memory, nanoCpus⟩
  reads {request limits} h := by
    obtain ⟨memory, hmemory, h⟩ := Option.bind_eq_some_iff.mp h
    obtain ⟨nanoCpus, hcpus, h⟩ := Option.bind_eq_some_iff.mp h
    cases h
    exact ⟨hmemory, hcpus⟩

/-! ### What the texts denote -/

/-- A decimal number with its sign. -/
def decimalNumber (t : JsString) : Option Decimal :=
  match t with
  | 45 :: t => if decimalLiteral t then some (numeralValue (45 :: t)) else none
  | 43 :: t => if decimalLiteral t then some (numeralValue t) else none
  | t => if decimalLiteral t then some (numeralValue t) else none

/-- The quantity that a text denotes: a decimal number, with a unit behind it or without. -/
def quantity (text : JsString) : Option ℚ :=
  match decimalNumber (trim text) with
  | some d => some d.toRat
  | none => do
    let i ← unitExponent [← (trim text).getLast?]
    let d ← decimalNumber (trim text).dropLast
    return d.toRat * 1024 ^ i

/-- A container has the limits that the texts denote. -/
structure Enforced (memory cpus : JsString) (limits : ContainerLimits) : Prop where
  memory_pos : 0 < limits.memory
  memory_eq : quantity memory = some (limits.memory : ℚ)
  cpus_pos : 0 < limits.nanoCpus
  cpus_eq : (decimalNumber (trim cpus)).map (fun d => d.toRat * 10 ^ 9) = some (limits.nanoCpus : ℚ)

/-- Whatever the daemon, a container is created with the limits that are declared, or not at all. -/
def FailClosed (D : Doubles) (memory cpus : JsString) : Prop :=
  ∀ (daemon : LimitsDaemon) (limits : ContainerLimits),
    daemon.create (hostLimits D ⟨some memory, some cpus⟩) = some limits → Enforced memory cpus limits

/-! ### When a declared limit is kept -/

/-- The decimal that the program reads in `memory`: digits with a unit, or what `Number` takes. -/
def memoryLiteral (text : JsString) : Option Decimal :=
  match memoryPattern (trim text) with
  | none => toNumber .exact text
  | some (digits, i) => some (.ofNat (digitsValue digits * 1024 ^ i))

section Conditions

variable (D : Doubles)

/-- The number for `memory` is the integer `i`. -/
def MemoryIs (memory : JsString) (i : ℤ) : Prop :=
  ∃ d x, memoryLiteral memory = some d ∧ D.near d = .finite x ∧ intOf x = some i

/-- `memory` denotes a positive integer of 64 bits, and is read as it is. -/
def ExactMemory (memory : JsString) : Prop := ∃ n : ℤ, 0 < n ∧ IsInt64 n ∧ quantity memory = some (n : ℚ) ∧ MemoryIs D memory n

/-- The number for `memory` is finite, and no integer of 64 bits. -/
def RefusedMemory (memory : JsString) : Prop :=
  ∃ d x, memoryLiteral memory = some d ∧ D.near d = .finite x ∧ ∀ i, intOf x = some i → ¬ IsInt64 i

/-- The number for `cpus` is not 0, and comes to `i` billionths. -/
def CpusAre (cpus : JsString) (i : ℤ) : Prop :=
  ∃ d x p, toNumber .exact cpus = some d ∧ D.near d = .finite x ∧ x.digits ≠ 0 ∧
    D.mul (.finite x) (.finite (.ofNat (10 ^ 9))) = .finite p ∧ ⌊p.toRat + 1 / 2⌋ = i

/-- `cpus` denotes a positive number of billionths, and comes to them. -/
def ExactCpus (cpus : JsString) : Prop :=
  ∃ n : ℤ, 0 < n ∧ IsInt64 n ∧ (decimalNumber (trim cpus)).map (fun d => d.toRat * 10 ^ 9) = some (n : ℚ) ∧ CpusAre D cpus n

/-- The number for `cpus` is too large for the daemon, and finite. -/
def RefusedCpus (cpus : JsString) : Prop := ∃ i, ¬ IsInt64 i ∧ CpusAre D cpus i

end Conditions

section

variable {D : Doubles} {memory cpus : JsString}

theorem int64Field_finite (d : Decimal) : int64Field (jsonNumber (some (.finite d))) = (intOf d).filter fun i => IsInt64 i := rfl

theorem isInt64_zero : IsInt64 0 := by decide

theorem unitExponent_le {unit : JsString} {i : ℕ} (h : unitExponent unit = some i) : i ≤ 3 := by
  unfold unitExponent at h
  split at h <;> cases h <;> omega

theorem memoryPattern_le {t digits : JsString} {i : ℕ} (h : memoryPattern t = some (digits, i)) : i ≤ 3 := by
  unfold memoryPattern at h
  split at h
  · cases h
  · obtain ⟨j, hj, heq⟩ := Option.map_eq_some_iff.mp h
    cases heq
    exact unitExponent_le hj

theorem intOf_of_digits_eq_zero {d : Decimal} (h : d.digits = 0) : intOf d = some 0 := by
  simp [intOf, (Decimal.eq_zero h).2, h]

/-- A text without a literal is an infinity or no number at all. -/
theorem numberOf_none {text : JsString} (h : toNumber .exact text = none) : ∀ d, numberOf D text ≠ .finite d := by
  intro d
  unfold numberOf
  rw [h]
  dsimp only
  split_ifs <;> exact nofun

/-- What becomes of the text of `memory`. -/
theorem parseMemory_cases (D : Doubles) (memory : JsString) :
    (∃ d, memoryLiteral memory = some d ∧ parseMemory D memory = D.near d) ∨
      int64Field (jsonNumber (some (parseMemory D memory))) = some 0 ∧
        ∀ d x, memoryLiteral memory = some d → D.near d = .finite x → intOf x = some 0 := by
  unfold parseMemory memoryLiteral
  cases hpattern : memoryPattern (trim memory) with
  | some found =>
    obtain ⟨digits, i⟩ := found
    exact .inl ⟨_, rfl, D.mul_scale _ _ (memoryPattern_le hpattern)⟩
  | none =>
    dsimp only
    by_cases htrue : numberTruthy (numberOf D memory) = true
    · rw [if_pos htrue]
      cases hnumber : toNumber .exact memory with
      | some d => exact .inl ⟨d, rfl, by rw [numberOf, hnumber]⟩
      | none =>
        refine .inr ⟨?_, nofun⟩
        have hfinite := numberOf_none (D := D) hnumber
        cases hx : numberOf D memory with
        | nan => rfl
        | infinity neg => rfl
        | finite d => exact absurd hx (hfinite d)
    · rw [if_neg htrue]
      refine .inr ⟨by decide, fun d x hd hx => ?_⟩
      rw [numberOf, hd] at htrue
      dsimp only at htrue
      rw [hx] at htrue
      exact intOf_of_digits_eq_zero (by simpa [numberTruthy] using htrue)

/-- The daemon reads no integer in the field. -/
theorem memory_none_iff : int64Field (jsonNumber (some (parseMemory D memory))) = none ↔ RefusedMemory D memory := by
  rcases parseMemory_cases D memory with ⟨d, hd, hparse⟩ | ⟨hzero, hliteral⟩
  · rw [hparse]
    constructor
    · intro hnone
      cases hx : D.near d with
      | nan => rw [hx] at hnone; cases hnone
      | infinity neg => rw [hx] at hnone; cases hnone
      | finite x =>
        rw [hx, int64Field_finite, Option.filter_eq_none_iff] at hnone
        exact ⟨d, x, hd, hx, fun i hi => by simpa using hnone i hi⟩
    · rintro ⟨d', x, hd', hx, hno⟩
      rw [hd, Option.some.injEq] at hd'
      rw [hd', hx, int64Field_finite, Option.filter_eq_none_iff]
      exact fun i hi => by simpa using hno i hi
  · rw [hzero]
    refine ⟨nofun, ?_⟩
    rintro ⟨d, x, hd, hx, hno⟩
    exact absurd isInt64_zero (hno 0 (hliteral d x hd hx))

/-- The daemon reads a limit. -/
theorem memory_some_iff {i : ℤ} (hi : 0 < i) :
    int64Field (jsonNumber (some (parseMemory D memory))) = some i ↔ IsInt64 i ∧ MemoryIs D memory i := by
  rcases parseMemory_cases D memory with ⟨d, hd, hparse⟩ | ⟨hzero, hliteral⟩
  · rw [hparse]
    constructor
    · intro hsome
      cases hx : D.near d with
      | nan => rw [hx] at hsome; cases hsome; omega
      | infinity neg => rw [hx] at hsome; cases hsome; omega
      | finite x =>
        rw [hx, int64Field_finite, Option.filter_eq_some_iff] at hsome
        exact ⟨by simpa using hsome.2, d, x, hd, hx, hsome.1⟩
    · rintro ⟨hint, d', x, hd', hx, hval⟩
      rw [hd, Option.some.injEq] at hd'
      rw [hd', hx, int64Field_finite, Option.filter_eq_some_iff]
      exact ⟨hval, by simpa using hint⟩
  · rw [hzero]
    constructor
    · intro h
      cases h
      omega
    · rintro ⟨-, d, x, hd, hx, hval⟩
      rw [hliteral d x hd hx, Option.some.injEq] at hval
      omega

/-- What becomes of the text of `cpus`: the rounded number of billionths, or no limit. -/
theorem cpus_cases (D : Doubles) (cpus : JsString) :
    (∃ i, (∀ j, CpusAre D cpus j ↔ j = i) ∧
        int64Field (jsonNumber (nanoCpus D (numberOf D cpus))) = if IsInt64 i then some i else none) ∨
      (∀ j, ¬ CpusAre D cpus j) ∧ int64Field (jsonNumber (nanoCpus D (numberOf D cpus))) = some 0 := by
  have hinfinity : ∀ neg, int64Field (jsonNumber (nanoCpus D (.infinity neg))) = some 0 := by
    intro neg
    have htrue : numberTruthy (.infinity neg) = true := rfl
    rw [nanoCpus, if_pos htrue, D.mul_infinity _ _ (by norm_num)]
    rfl
  cases hnumber : toNumber .exact cpus with
  | none =>
    refine .inr ⟨?_, ?_⟩
    · rintro j ⟨d, x, p, hd, -⟩
      rw [hnumber] at hd
      cases hd
    · have hfinite := numberOf_none (D := D) hnumber
      cases hx : numberOf D cpus with
      | nan => rfl
      | infinity neg => exact hinfinity neg
      | finite d => exact absurd hx (hfinite d)
  | some d =>
    have hnear : numberOf D cpus = D.near d := by rw [numberOf, hnumber]
    rw [hnear]
    cases hx : D.near d with
    | nan =>
      refine .inr ⟨?_, rfl⟩
      rintro j ⟨d', x, p, hd, hx', -⟩
      rw [hnumber, Option.some.injEq] at hd
      rw [← hd, hx] at hx'
      cases hx'
    | infinity neg =>
      refine .inr ⟨?_, hinfinity neg⟩
      rintro j ⟨d', x, p, hd, hx', -⟩
      rw [hnumber, Option.some.injEq] at hd
      rw [← hd, hx] at hx'
      cases hx'
    | finite x =>
      have hsame : ∀ j, CpusAre D cpus j ↔ ∃ p, x.digits ≠ 0 ∧ D.mul (.finite x) (.finite (.ofNat (10 ^ 9))) = .finite p ∧
          ⌊p.toRat + 1 / 2⌋ = j := by
        intro j
        constructor
        · rintro ⟨d', x', p, hd, hx', h⟩
          rw [hnumber, Option.some.injEq] at hd
          rw [← hd, hx, JsNumber.finite.injEq] at hx'
          exact ⟨p, hx' ▸ h⟩
        · rintro ⟨p, h⟩
          exact ⟨d, x, p, hnumber, hx, h⟩
      by_cases hdigits : x.digits = 0
      · refine .inr ⟨fun j hj => ?_, ?_⟩
        · obtain ⟨p, hne, -⟩ := (hsame j).mp hj
          exact hne hdigits
        · rw [nanoCpus, if_neg (by simpa [numberTruthy] using hdigits)]
          rfl
      · have htrue : numberTruthy (.finite x) = true := by simpa [numberTruthy] using hdigits
        rw [nanoCpus, if_pos htrue]
        cases hp : D.mul (.finite x) (.finite (.ofNat (10 ^ 9))) with
        | nan =>
          refine .inr ⟨fun j hj => ?_, rfl⟩
          obtain ⟨p, -, hp', -⟩ := (hsame j).mp hj
          rw [hp] at hp'
          cases hp'
        | infinity neg =>
          refine .inr ⟨fun j hj => ?_, rfl⟩
          obtain ⟨p, -, hp', -⟩ := (hsame j).mp hj
          rw [hp] at hp'
          cases hp'
        | finite p =>
          refine .inl ⟨⌊p.toRat + 1 / 2⌋, fun j => ?_, ?_⟩
          · rw [hsame]
            constructor
            · rintro ⟨p', -, hp', rfl⟩
              rw [hp, JsNumber.finite.injEq] at hp'
              rw [hp']
            · rintro rfl
              exact ⟨p, hdigits, hp, rfl⟩
          · rw [mathRound, int64Field_finite, intOf_ofInt, Option.filter_some]
            simp only [decide_eq_true_eq]

theorem cpus_none_iff : int64Field (jsonNumber (nanoCpus D (numberOf D cpus))) = none ↔ RefusedCpus D cpus := by
  rcases cpus_cases D cpus with ⟨i, hi, hfield⟩ | ⟨hno, hfield⟩
  · rw [hfield]
    constructor
    · intro hnone
      refine ⟨i, fun hint => ?_, (hi i).mpr rfl⟩
      rw [if_pos hint] at hnone
      cases hnone
    · rintro ⟨j, hint, hj⟩
      rw [(hi j).mp hj] at hint
      exact if_neg hint
  · rw [hfield]
    refine ⟨nofun, ?_⟩
    rintro ⟨j, -, hj⟩
    exact absurd hj (hno j)

theorem cpus_some_iff {i : ℤ} (hi : 0 < i) :
    int64Field (jsonNumber (nanoCpus D (numberOf D cpus))) = some i ↔ IsInt64 i ∧ CpusAre D cpus i := by
  rcases cpus_cases D cpus with ⟨k, hk, hfield⟩ | ⟨hno, hfield⟩
  · rw [hfield, hk]
    constructor
    · intro hsome
      split at hsome
      · rename_i hint
        cases hsome
        exact ⟨hint, rfl⟩
      · cases hsome
    · rintro ⟨hint, rfl⟩
      exact if_pos hint
  · rw [hfield]
    constructor
    · intro h
      cases h
      omega
    · rintro ⟨-, hj⟩
      exact absurd hj (hno i)

/-- **Which limits fail closed**: those whose texts are read as they are, and those of which one is a number that the daemon
refuses. -/
theorem failClosed_iff (D : Doubles) {memory cpus : JsString} (hmemory : memory ≠ []) (hcpus : cpus ≠ []) :
    FailClosed D memory cpus ↔
      RefusedMemory D memory ∨ RefusedCpus D cpus ∨ (ExactMemory D memory ∧ ExactCpus D cpus) := by
  have hrequest : hostLimits D ⟨some memory, some cpus⟩ =
      ⟨jsonNumber (some (parseMemory D memory)), jsonNumber (nanoCpus D (numberOf D cpus))⟩ := by
    simp [hostLimits, Option.filter, hmemory, hcpus]
  rw [FailClosed, hrequest, ← memory_none_iff, ← cpus_none_iff]
  constructor
  · intro h
    cases hm : int64Field (jsonNumber (some (parseMemory D memory))) with
    | none => exact .inl rfl
    | some a =>
      cases hc : int64Field (jsonNumber (nanoCpus D (numberOf D cpus))) with
      | none => exact .inr (.inl rfl)
      | some b =>
        have hlimits : Enforced memory cpus ⟨a, b⟩ := h .lenient ⟨a, b⟩ (by simp [LimitsDaemon.lenient, hm, hc])
        obtain ⟨haint, ha⟩ := (memory_some_iff hlimits.memory_pos).mp hm
        obtain ⟨hbint, hb⟩ := (cpus_some_iff hlimits.cpus_pos).mp hc
        exact .inr (.inr ⟨⟨a, hlimits.memory_pos, haint, hlimits.memory_eq, ha⟩, b, hlimits.cpus_pos, hbint, hlimits.cpus_eq, hb⟩)
  · intro h daemon limits hcreate
    obtain ⟨hm, hc⟩ := daemon.reads hcreate
    rcases h with h | h | ⟨⟨a, hpos, hint, hquantity, ha⟩, b, hbpos, hbint, hvalue, hb⟩
    · rw [h] at hm
      cases hm
    · rw [h] at hc
      cases hc
    · rw [(memory_some_iff hpos).mpr ⟨hint, ha⟩, Option.some.injEq] at hm
      rw [(cpus_some_iff hbpos).mpr ⟨hbint, hb⟩, Option.some.injEq] at hc
      subst hm hc
      exact ⟨hpos, hquantity, hbpos, hvalue⟩

end

/-! ### Limits that are kept, and one that is lost -/

theorem Decimal.toRat_ofParts (neg : Bool) (n : ℕ) (e : ℤ) :
    (Decimal.ofParts neg n e).toRat = (if neg then -1 else 1) * n * 10 ^ e := by
  unfold Decimal.ofParts Decimal.toRat
  split
  · rename_i h
    simp [h]
  · rw [mul_assoc, mul_assoc, stripTens_toRat]

/-- `x * y`, without rounding. -/
def exactTimes : JsNumber → JsNumber → JsNumber
  | .finite x, .finite y => .finite (.ofParts (x.neg != y.neg) (x.digits * y.digits) (x.exp + y.exp))
  | .infinity neg, .finite y => if y.digits = 0 then .nan else .infinity (neg != y.neg)
  | _, _ => .nan

theorem exactTimes_ofNat (m n : ℕ) : exactTimes (.finite (.ofNat m)) (.finite (.ofNat n)) = .finite (.ofNat (m * n)) := by
  refine congrArg JsNumber.finite (Decimal.toRat_injective ?_)
  have hprod : (Decimal.ofNat m).toRat * (Decimal.ofNat n).toRat = ((m * n : ℕ) : ℚ) := by
    rw [Decimal.toRat_ofNat, Decimal.toRat_ofNat, Nat.cast_mul]
  rw [Decimal.toRat_ofParts, Decimal.toRat_ofNat, ← hprod, Decimal.toRat, Decimal.toRat, zpow_add₀ (by norm_num), Nat.cast_mul]
  cases (Decimal.ofNat m).neg <;> cases (Decimal.ofNat n).neg <;> simp <;> ring

theorem digits_ofNat_ne_zero {n : ℕ} (h : 0 < n) : (Decimal.ofNat n).digits ≠ 0 := by
  unfold Decimal.ofNat
  rw [dif_neg h.ne']
  exact (stripTens_spec n n 0 h.ne' le_rfl).1

/-- Arithmetic without rounding, as that of the language is on small numbers. -/
def Doubles.exact : Doubles where
  near d := .finite d
  mul := exactTimes
  mul_scale n i _ := exactTimes_ofNat n (1024 ^ i)
  mul_infinity neg n h := by
    have hneg : (Decimal.ofNat n).neg = false := by
      unfold Decimal.ofNat
      rw [dif_neg h.ne']
    rw [exactTimes, if_neg (digits_ofNat_ne_zero h), hneg, Bool.bne_false]

/-- The limits `512m` and `1.5` are kept. -/
theorem failClosed_half_gigabyte : FailClosed .exact (js "512m") (js "1.5") := by
  refine (failClosed_iff .exact (by decide) (by decide)).mpr (.inr (.inr ⟨?_, ?_⟩))
  · refine ⟨536870912, by norm_num, by decide, by decide +kernel, .ofNat 536870912, .ofNat 536870912, by decide +kernel, rfl, by decide +kernel⟩
  · refine ⟨1500000000, by norm_num, by decide, by decide +kernel, numeralValue (js "1.5"), numeralValue (js "1.5"),
      .ofNat 1500000000, by decide +kernel, rfl, by decide +kernel, ?_, ?_⟩
    · refine congrArg JsNumber.finite ?_
      decide +kernel
    · decide +kernel

/-- The limit `0.5g` is lost. -/
theorem failClosed_fraction : ¬ ∀ (D : Doubles) (memory cpus : JsString), memory ≠ [] → cpus ≠ [] → FailClosed D memory cpus := by
  intro h
  have hlimits := h .exact (js "0.5g") (js "1") (by decide) (by decide) .lenient ⟨0, 1000000000⟩ (by decide +kernel)
  exact absurd hlimits.memory_pos (by decide)

end Wanfw.Orchestrator
