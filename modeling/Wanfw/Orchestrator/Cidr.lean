import Wanfw.Js.Act
import Wanfw.Js.JsonText

/-!
# Addresses and ranges

`ipam/cidr.ts`: an IPv4 address is four numbers with points between them, a range an address
with a prefix length. The parts are read with `Number`, which takes more than digits: `0x10`,
` 7 `, `1e1` and the empty text (which is 0) are numbers too. `intToIp` writes an address in one
way only, and `ipToInt_intToIp` reads that back.

`hostsInCidr_ok`: the addresses that `hostsInCidr` lists, in ascending order, are those between the
network address and the broadcast address of the range, without the excluded one.
-/

namespace Wanfw.Orchestrator

open Wanfw.Js

/-! ### `Number(text)` -/

/-- A decimal literal without its sign: one side of the point may be empty. -/
def decimalLiteral (t : JsString) : Bool :=
  match t.dropWhile digit with
  | 46 :: r => (validDigits (t.takeWhile digit) || validDigits (r.takeWhile digit)) && validExp (r.dropWhile digit)
  | r => validDigits (t.takeWhile digit) && validExp r

/-- The digits of a literal with a radix. -/
def radixLiteral (base : ℕ) (t : JsString) : Option Decimal :=
  match t.mapM hexDigitValue with
  | none | some [] => none
  | some ds => if ds.all (· < base) then some (.ofNat (ds.foldl (fun a d => base * a + d) 0)) else none

section Number

variable (N : Numerals)

/-- `Number(text)`, if it is a finite number. -/
def toNumber (text : JsString) : Option Decimal :=
  match trim text with
  | [] => some 0
  | 45 :: t => if decimalLiteral t then some (N.value (45 :: t)) else none
  | 43 :: t => if decimalLiteral t then some (N.value t) else none
  | 48 :: u :: t =>
    if u = 120 ∨ u = 88 then radixLiteral 16 t
    else if u = 111 ∨ u = 79 then radixLiteral 8 t
    else if u = 98 ∨ u = 66 then radixLiteral 2 t
    else if decimalLiteral (48 :: u :: t) then some (N.value (48 :: u :: t)) else none
  | t => if decimalLiteral t then some (N.value t) else none

/-- `Number(text)`, if it is an integer from 0 to `bound`. -/
def natUpTo (bound : ℕ) (text : JsString) : Option ℕ := ((toNumber N text).bind natOf).filter (· ≤ bound)

/-! ### The source -/

/-- `ipToInt`. -/
def ipToInt (ip : JsString) : Except JsError UInt32 :=
  match (split ip 46).mapM (natUpTo N 255) with
  | some [a, b, c, d] =>
    .ok (a.toUInt32 <<< 24 ||| b.toUInt32 <<< 16 ||| c.toUInt32 <<< 8 ||| d.toUInt32)
  | _ => .error (.error (js "invalid IPv4 address: '" ++ ip ++ js "'"))

/-- `intToIp`. -/
def intToIp (n : UInt32) : JsString :=
  join ([n >>> 24 &&& 255, n >>> 16 &&& 255, n >>> 8 &&& 255, n &&& 255].map fun part => natToString part.toNat) (js ".")

/-- `ParsedCidr`. -/
structure ParsedCidr where
  networkInt : UInt32
  broadcastInt : UInt32
  prefixLen : ℕ

/-- `parseCidr`. -/
def parseCidr (cidr : JsString) : Except JsError ParsedCidr :=
  match split cidr 47 with
  | addr :: prefixStr :: _ =>
    if addr = [] ∨ prefixStr = [] then .error (.error (js "invalid CIDR: '" ++ cidr ++ js "'"))
    else
      match natUpTo N 32 prefixStr with
      | none => .error (.error (js "invalid CIDR prefix length: '" ++ cidr ++ js "'"))
      | some prefixLen => do
        let hostBits := 32 - prefixLen
        let mask : UInt32 := if hostBits = 32 then 0 else 0xFFFFFFFF <<< hostBits.toUInt32
        let networkInt := (← ipToInt N addr) &&& mask
        return ⟨networkInt, if hostBits = 32 then 0xFFFFFFFF else networkInt ||| ~~~mask, prefixLen⟩
  | _ => .error (.error (js "invalid CIDR: '" ++ cidr ++ js "'"))

/-- The address that is left out, if one is given. -/
def excludeInt (exclude : JsString) : Except JsError (Option UInt32) :=
  if exclude = [] then .ok none else (ipToInt N exclude).map some

/-- `hostsInCidr`. -/
def hostsInCidr (cidr exclude : JsString) : Except JsError (List JsString) := do
  let parsed ← parseCidr N cidr
  let excluded ← excludeInt N exclude
  if 31 ≤ parsed.prefixLen then return []
  return ((List.range' (parsed.networkInt.toNat + 1) (parsed.broadcastInt.toNat - (parsed.networkInt.toNat + 1))).filter
    fun n => excluded ≠ some n.toUInt32).map fun n => intToIp n.toUInt32

end Number

/-! ### Reading an address back -/

section Text

variable {N : Numerals} {t : JsString} {n : ℕ}

/-- A numeral without a sign is a literal. -/
theorem decimalLiteral_of_validUnsigned (h : validUnsigned t = true) : decimalLiteral t = true := by
  unfold validUnsigned at h
  dsimp only at h
  rw [Bool.and_eq_true, Bool.and_eq_true] at h
  obtain ⟨⟨hdigits, -⟩, hfrac⟩ := h
  unfold decimalLiteral
  unfold validFrac at hfrac
  split
  · rename_i r heq
    rw [heq] at hfrac
    obtain ⟨hfirst, hexp⟩ := Bool.and_eq_true_iff.mp hfrac
    simp [hdigits, hexp]
  · rename_i heq
    split at hfrac
    · rename_i r heq'
      exact absurd heq' (heq _)
    · simp [hdigits, hfrac]

theorem decimalLiteral_units (h : decimalLiteral t = true) : ∀ u ∈ t, numeralUnit u = true := by
  have hdigits : ∀ s : JsString, ∀ u ∈ s.takeWhile digit, numeralUnit u = true := by
    intro s u hu
    have hdigit : IsDigit u := of_decide_eq_true (p := IsDigit u) (List.mem_takeWhile_imp (p := digit) hu)
    simp [numeralUnit, IsNumeral, hdigit]
  rw [← List.takeWhile_append_dropWhile (p := digit) (l := t)]
  unfold decimalLiteral at h
  intro u hu
  rcases List.mem_append.mp hu with hu | hu
  · exact hdigits t u hu
  · split at h
    · rename_i r heq
      rw [Bool.and_eq_true] at h
      rw [heq, ← List.takeWhile_append_dropWhile (p := digit) (l := r)] at hu
      rcases List.mem_cons.mp hu with rfl | hu
      · decide
      · rcases List.mem_append.mp hu with hu | hu
        · exact hdigits r u hu
        · exact validExp_units h.2 u hu
    · rw [Bool.and_eq_true] at h
      exact validExp_units h.2 u hu

/-- **The text of a number is read back.** -/
theorem toNumber_numberToString (d : Decimal) : toNumber N (numberToString d) = some d := by
  have hnumeral := isNumeral_numberToString d
  have hvalue := N.value_numberToString d
  unfold toNumber
  rw [trim_eq_self fun u hu => isSpace_numeral (hnumeral u hu)]
  by_cases h0 : d.digits = 0
  · have htext : numberToString d = [48] := by
      unfold numberToString
      rw [if_pos h0]
      rfl
    rw [htext] at hvalue ⊢
    exact congrArg some hvalue
  have hunsigned := decimalLiteral_of_validUnsigned (validUnsigned_unsignedToString h0 d.exp)
  cases hneg : d.neg with
  | true =>
    have htext : numberToString d = 45 :: unsignedToString d.digits d.exp := by
      unfold numberToString
      rw [if_neg h0, hneg]
      rfl
    rw [htext] at hvalue ⊢
    simp only [hunsigned, if_true, hvalue]
  | false =>
    have htext : numberToString d = unsignedToString d.digits d.exp := by
      unfold numberToString
      rw [if_neg h0, hneg]
      rfl
    obtain ⟨u, rest, hhead, hdigit⟩ := unsignedToString_head h0 d.exp
    rw [htext] at hvalue hnumeral ⊢
    split
    · rename_i heq
      rw [heq] at hhead
      cases hhead
    · rename_i heq
      rw [heq] at hhead
      rw [← (List.cons.inj hhead).1] at hdigit
      exact absurd hdigit (by decide)
    · rename_i heq
      rw [heq] at hhead
      rw [← (List.cons.inj hhead).1] at hdigit
      exact absurd hdigit (by decide)
    · rename_i v s heq
      have hv : IsNumeral v := hnumeral v (by simp [heq])
      rw [if_neg, if_neg, if_neg, ← heq, if_pos hunsigned, hvalue]
      · rintro (rfl | rfl) <;> exact absurd hv (by decide)
      · rintro (rfl | rfl) <;> exact absurd hv (by decide)
      · rintro (rfl | rfl) <;> exact absurd hv (by decide)
    · rw [if_pos hunsigned, hvalue]

/-- A text with the letter `t` is no number. -/
theorem toNumber_of_t (h : (116 : UInt16) ∈ t) : toNumber N t = none := by
  have hmem := mem_trim h (by decide)
  have hliteral : ∀ s : JsString, (116 : UInt16) ∈ s → decimalLiteral s = false := by
    intro s hs
    by_contra htrue
    exact absurd (decimalLiteral_units ((Bool.not_eq_false _).mp htrue) 116 hs) (by decide)
  have hradix : ∀ base, ∀ s : JsString, (116 : UInt16) ∈ s → radixLiteral base s = none := by
    intro base s hs
    have hnone : s.mapM hexDigitValue = none := by
      obtain ⟨a, b, rfl⟩ := List.append_of_mem hs
      rw [List.mapM_append, List.mapM_cons]
      cases a.mapM hexDigitValue <;> rfl
    rw [radixLiteral, hnone]
  unfold toNumber
  split
  · rename_i heq
    rw [heq] at hmem
    cases hmem
  · rename_i s heq
    rw [heq] at hmem
    rw [hliteral s (by simpa using hmem)]
    rfl
  · rename_i s heq
    rw [heq] at hmem
    rw [hliteral s (by simpa using hmem)]
    rfl
  · rename_i v s heq
    rw [heq] at hmem
    have hnot := hliteral _ hmem
    have htail : v = 116 ∨ (116 : UInt16) ∈ s := by simpa [eq_comm] using hmem
    split_ifs with h1 h2 h3
    · exact hradix 16 s (htail.resolve_left (by rintro rfl; revert h1; decide))
    · exact hradix 8 s (htail.resolve_left (by rintro rfl; revert h2; decide))
    · exact hradix 2 s (htail.resolve_left (by rintro rfl; revert h3; decide))
    · exact absurd (by assumption) (ne_of_eq_of_ne hnot Bool.false_ne_true)
    · rfl
  · rename_i heq
    rw [hliteral _ hmem]
    rfl

theorem toNumber_natToString (hn : n < 10 ^ 21) : toNumber N (natToString n) = some (.ofNat n) := by
  rw [← numberToString_of_natOf (natOf_ofNat n) hn]
  exact toNumber_numberToString _

theorem natUpTo_natToString {bound : ℕ} (hn : n ≤ bound) (hbound : bound < 10 ^ 21) :
    natUpTo N bound (natToString n) = some n := by
  rw [natUpTo, toNumber_natToString (by omega), Option.bind_some, natOf_ofNat]
  simp [hn]

theorem getLsbD_octet (i : ℕ) : (255#32).getLsbD i = decide (i < 8) := by
  rw [BitVec.getLsbD_ofNat, show (255 : ℕ) = 2 ^ 8 - 1 from rfl, Nat.testBit_two_pow_sub_one]
  by_cases h : i < 8
  · simp [h, show i < 32 by omega]
  · simp [h]

/-- The four parts of an address make it up. -/
theorem octets_bits (b : BitVec 32) :
    (b >>> 24 &&& 255#32) <<< 24 ||| (b >>> 16 &&& 255#32) <<< 16 ||| (b >>> 8 &&& 255#32) <<< 8 |||
      (b &&& 255#32) = b := by
  refine BitVec.eq_of_getLsbD_eq fun i hi => ?_
  simp only [BitVec.getLsbD_or, BitVec.getLsbD_and, BitVec.getLsbD_shiftLeft, BitVec.getLsbD_ushiftRight,
    getLsbD_octet, hi, decide_true, Bool.true_and]
  rcases Nat.lt_or_ge i 8 with h8 | h8
  · simp [h8, show i < 16 by omega, show i < 24 by omega]
  · rcases Nat.lt_or_ge i 16 with h16 | h16
    · simp [Nat.not_lt.mpr h8, h16, show i < 24 by omega, show i - 8 < 8 by omega, show 8 + (i - 8) = i by omega]
    · rcases Nat.lt_or_ge i 24 with h24 | h24
      · simp [Nat.not_lt.mpr h8, Nat.not_lt.mpr h16, h24, show i - 16 < 8 by omega, show 16 + (i - 16) = i by omega,
          show ¬ i - 8 < 8 by omega]
      · simp [Nat.not_lt.mpr h8, Nat.not_lt.mpr h16, Nat.not_lt.mpr h24, show i - 24 < 8 by omega,
          show 24 + (i - 24) = i by omega, show ¬ i - 8 < 8 by omega, show ¬ i - 16 < 8 by omega]

theorem octets_join (x : UInt32) :
    (x >>> 24 &&& 255) <<< 24 ||| (x >>> 16 &&& 255) <<< 16 ||| (x >>> 8 &&& 255) <<< 8 ||| (x &&& 255) = x :=
  UInt32.toBitVec_inj.mp (octets_bits x.toBitVec)

/-- **An address is read back.** -/
theorem ipToInt_intToIp (x : UInt32) : ipToInt N (intToIp x) = .ok x := by
  let parts := [x >>> 24 &&& 255, x >>> 16 &&& 255, x >>> 8 &&& 255, x &&& 255].map fun part => natToString part.toNat
  have hsplit : split (intToIp x) 46 = parts := by
    refine List.splitOn_intercalate _ (fun s hs => ?_) (by simp)
    obtain ⟨part, -, rfl⟩ := List.mem_map.mp hs
    exact not_mem_of_digits (by decide) (isDigit_natToString _)
  have hoctet : ∀ y : UInt32, natUpTo N 255 (natToString (y &&& 255).toNat) = some (y &&& 255).toNat := by
    intro y
    refine natUpTo_natToString ?_ (by decide)
    rw [UInt32.toNat_and]
    exact Nat.and_le_right
  have hparts : parts.mapM (natUpTo N 255) =
      some [(x >>> 24 &&& 255).toNat, (x >>> 16 &&& 255).toNat, (x >>> 8 &&& 255).toNat, (x &&& 255).toNat] := by
    simp only [parts, List.map_cons, List.map_nil, List.mapM_cons, List.mapM_nil, hoctet]
    rfl
  rw [ipToInt, hsplit, hparts]
  simp only [Nat.toUInt32, UInt32.ofNat_toNat]
  exact congrArg Except.ok (octets_join x)

end Text

/-! ### Ranges -/

section Ranges

/-- The mask that clears `k` bits. -/
theorem testBit_mask {k : ℕ} (hk : k < 32) (i : ℕ) : ((0xFFFFFFFF : UInt32) <<< k.toUInt32).toNat.testBit i = decide (k ≤ i ∧ i < 32) := by
  have hshift : k.toUInt32.toNat = k := by
    rw [Nat.toUInt32, UInt32.toNat_ofNat']
    omega
  rw [UInt32.toNat_shiftLeft, hshift, Nat.mod_eq_of_lt hk, Nat.testBit_mod_two_pow, Nat.testBit_shiftLeft,
    show (0xFFFFFFFF : UInt32).toNat = 2 ^ 32 - 1 from rfl, Nat.testBit_two_pow_sub_one]
  by_cases h1 : i < 32 <;> by_cases h2 : k ≤ i <;> simp [h1, h2]
  omega

theorem testBit_lt (x : UInt32) {i : ℕ} (hi : ¬ i < 32) : x.toNat.testBit i = false :=
  Nat.testBit_lt_two_pow (x.toNat_lt.trans_le (Nat.pow_le_pow_right (by decide) (not_lt.mp hi)))

/-- An address with its host bits cleared. -/
theorem toNat_network {k : ℕ} (hk : k < 32) (addr : UInt32) :
    (addr &&& (0xFFFFFFFF : UInt32) <<< k.toUInt32).toNat = 2 ^ k * (addr.toNat / 2 ^ k) := by
  refine Nat.eq_of_testBit_eq fun i => ?_
  rw [UInt32.toNat_and, Nat.testBit_and, testBit_mask hk, Nat.testBit_two_pow_mul, Nat.testBit_div_two_pow]
  by_cases h1 : i < 32
  · by_cases h2 : k ≤ i <;> simp [h1, h2]
  · by_cases h2 : k ≤ i
    · simp [testBit_lt addr h1, h1, h2]
    · simp [h1, h2]

/-- An address with its host bits set. -/
theorem toNat_broadcast {k : ℕ} (hk : k < 32) (addr : UInt32) :
    (addr &&& (0xFFFFFFFF : UInt32) <<< k.toUInt32 ||| ~~~((0xFFFFFFFF : UInt32) <<< k.toUInt32)).toNat =
      2 ^ k * (addr.toNat / 2 ^ k) + (2 ^ k - 1) := by
  have hmask : (~~~((0xFFFFFFFF : UInt32) <<< k.toUInt32)).toNat = 2 ^ k - 1 := by
    refine Nat.eq_of_testBit_eq fun i => ?_
    have hnot : (~~~((0xFFFFFFFF : UInt32) <<< k.toUInt32)).toNat.testBit i =
        (decide (i < 32) && !((0xFFFFFFFF : UInt32) <<< k.toUInt32).toNat.testBit i) := BitVec.getLsbD_not
    rw [Nat.testBit_two_pow_sub_one, hnot, testBit_mask hk]
    by_cases h1 : i < k
    · simp [h1, h1.trans hk]
    · by_cases h2 : i < 32 <;> simp [not_lt.mp h1, h2]
  rw [UInt32.toNat_or, toNat_network hk, hmask, Nat.two_pow_add_eq_or_of_lt (Nat.sub_lt (Nat.two_pow_pos k) Nat.one_pos)]

/-- A range goes from an address with its host bits cleared to the same address with them set. -/
theorem parseCidr_ok {N : Numerals} {cidr : JsString} {parsed : ParsedCidr} (h : parseCidr N cidr = .ok parsed) :
    parsed.prefixLen ≤ 32 ∧ ∃ addr : UInt32,
      parsed.networkInt.toNat = 2 ^ (32 - parsed.prefixLen) * (addr.toNat / 2 ^ (32 - parsed.prefixLen)) ∧
        parsed.broadcastInt.toNat = parsed.networkInt.toNat + (2 ^ (32 - parsed.prefixLen) - 1) := by
  unfold parseCidr at h
  split at h
  · split at h
    · cases h
    · split at h
      · cases h
      · rename_i prefixLen hprefix
        obtain ⟨addr, -, hparsed⟩ := except_bind_ok.mp h
        cases hparsed
        have hbound : prefixLen ≤ 32 := by
          unfold natUpTo at hprefix
          simpa using (Option.filter_eq_some_iff.mp hprefix).2
        refine ⟨hbound, addr, ?_⟩
        dsimp only
        by_cases hall : 32 - prefixLen = 32
        · rw [if_pos hall, if_pos hall, hall, Nat.div_eq_of_lt addr.toNat_lt, UInt32.and_zero]
          exact ⟨rfl, rfl⟩
        · have hk : 32 - prefixLen < 32 := by omega
          rw [if_neg hall, if_neg hall, toNat_broadcast hk, toNat_network hk]
          exact ⟨rfl, rfl⟩
  · cases h

end Ranges

/-! ### Usable hosts -/

/-- The address is a host of the range that may be given away: between the network address and the broadcast
address, and not the gateway. -/
def UsableHost (N : Numerals) (cidr gateway ip : JsString) : Prop :=
  ∃ n parsed excluded, ipToInt N ip = .ok n ∧ parseCidr N cidr = .ok parsed ∧ excludeInt N gateway = .ok excluded ∧
    parsed.networkInt < n ∧ n < parsed.broadcastInt ∧ excluded ≠ some n

theorem usableHost_intToIp {N : Numerals} {cidr gateway : JsString} {n : UInt32} : UsableHost N cidr gateway (intToIp n) ↔
    ∃ parsed excluded, parseCidr N cidr = .ok parsed ∧ excludeInt N gateway = .ok excluded ∧
      parsed.networkInt < n ∧ n < parsed.broadcastInt ∧ excluded ≠ some n := by
  constructor
  · rintro ⟨m, parsed, excluded, hip, hrest⟩
    cases (ipToInt_intToIp n).symm.trans hip
    exact ⟨parsed, excluded, hrest⟩
  · rintro ⟨parsed, excluded, hrest⟩
    exact ⟨n, parsed, excluded, ipToInt_intToIp n, hrest⟩

/-- **The usable hosts are listed**, in ascending order. -/
theorem hostsInCidr_ok {N : Numerals} {cidr gateway : JsString} {hosts : List JsString}
    (h : hostsInCidr N cidr gateway = .ok hosts) :
    ∃ ns : List UInt32, hosts = ns.map intToIp ∧ ns.Pairwise (· < ·) ∧ ∀ n, n ∈ ns ↔ UsableHost N cidr gateway (intToIp n) := by
  unfold hostsInCidr at h
  obtain ⟨parsed, hparsed, h⟩ := except_bind_ok.mp h
  obtain ⟨excluded, hexcluded, h⟩ := except_bind_ok.mp h
  have husable : ∀ n, UsableHost N cidr gateway (intToIp n) ↔
      parsed.networkInt < n ∧ n < parsed.broadcastInt ∧ excluded ≠ some n := by
    intro n
    rw [usableHost_intToIp, hparsed, hexcluded]
    simp
  obtain ⟨hbound, addr, hnetwork, hbroadcast⟩ := parseCidr_ok hparsed
  simp only [UInt32.lt_iff_toNat_lt] at husable
  split at h
  · -- no two addresses to leave out
    rename_i hlong
    cases h
    refine ⟨[], rfl, List.Pairwise.nil, fun n => iff_of_false List.not_mem_nil ?_⟩
    rw [husable]
    have hpow : 2 ^ (32 - parsed.prefixLen) ≤ 2 ^ 1 := Nat.pow_le_pow_right (by decide) (by omega)
    omega
  · cases h
    have hmax := parsed.broadcastInt.toNat_lt
    have htoNat : ∀ n < 2 ^ 32, n.toUInt32.toNat = n := by
      intro n hn
      rw [Nat.toUInt32, UInt32.toNat_ofNat', Nat.mod_eq_of_lt hn]
    refine ⟨((List.range' (parsed.networkInt.toNat + 1) (parsed.broadcastInt.toNat - (parsed.networkInt.toNat + 1))).filter
      fun n => excluded ≠ some n.toUInt32).map Nat.toUInt32, by rw [List.map_map]; rfl, ?_, fun n => ?_⟩
    · rw [List.pairwise_map]
      refine List.Pairwise.imp_of_mem (fun {a b} ha hb hlt => ?_) ((List.pairwise_lt_range').filter _)
      have ha := List.mem_range'_1.mp (List.mem_of_mem_filter ha)
      have hb := List.mem_range'_1.mp (List.mem_of_mem_filter hb)
      rw [UInt32.lt_iff_toNat_lt, htoNat a (by omega), htoNat b (by omega)]
      exact hlt
    · rw [husable, List.mem_map]
      constructor
      · rintro ⟨m, hm, rfl⟩
        obtain ⟨hrange, hne⟩ := List.mem_filter.mp hm
        rw [List.mem_range'_1] at hrange
        rw [htoNat m (by omega)]
        exact ⟨by omega, by omega, by simpa using hne⟩
      · rintro ⟨hlow, hhigh, hne⟩
        have hn : n.toNat.toUInt32 = n := UInt32.ofNat_toNat
        refine ⟨n.toNat, List.mem_filter.mpr ⟨List.mem_range'_1.mpr (by omega), ?_⟩, hn⟩
        rw [hn]
        simpa using hne

/-- Every address on the list is a usable host. -/
theorem usable_of_mem {N : Numerals} {cidr gateway ip : JsString} {hosts : List JsString}
    (h : hostsInCidr N cidr gateway = .ok hosts) (hip : ip ∈ hosts) : UsableHost N cidr gateway ip := by
  obtain ⟨ns, rfl, -, hmem⟩ := hostsInCidr_ok h
  obtain ⟨n, hn, rfl⟩ := List.mem_map.mp hip
  exact (hmem n).mp hn

end Wanfw.Orchestrator
