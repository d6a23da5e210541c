import Wanfw.Js.Bitwise
import Wanfw.Orchestrator.Cidr

/-!
# The arithmetic of ranges

`ipam/cidr.ts` with the numbers as the source has them: every `<<`, `|`, `&` and `~` gives a
signed number, which `>>> 0` reads unsigned before it is compared. These functions compute the
unsigned words of `Cidr` (`ipToInt_eq`, `parseCidr_eq`, `hostsInCidr_eq`).

`cidr_arithmetic`: for every address with a prefix length, the network number and the broadcast
number are the address with its host bits cleared and set, `hostsInCidr` lists what is strictly
between them but for the excluded address, and `isIpInCidr` tells what is between them.
-/

namespace Wanfw.Orchestrator.Cidr

open Wanfw.Js

/-! ### The source -/

section Source

variable (N : Numerals)

/-- `ipToInt`. -/
def ipToInt (ip : JsString) : Except JsError ℤ :=
  match (split ip 46).mapM (natUpTo N 255) with
  | some [a, b, c, d] => .ok (shiftRight (bitOr (bitOr (bitOr (shiftLeft a 24) (shiftLeft b 16)) (shiftLeft c 8)) d) 0)
  | _ => .error (.error (js "invalid IPv4 address: '" ++ ip ++ js "'"))

/-- `intToIp`. -/
def intToIp (n : ℤ) : JsString :=
  join ([bitAnd (shiftRight n 24) 255, bitAnd (shiftRight n 16) 255, bitAnd (shiftRight n 8) 255, bitAnd n 255].map intText) (js ".")

/-- `ParsedCidr`. -/
structure ParsedCidr where
  networkInt : ℤ
  broadcastInt : ℤ
  prefixLen : ℕ

/-- `parseCidr`. -/
def parseCidr (cidr : JsString) : Except JsError ParsedCidr :=
  match split cidr 47 with
  | addr :: prefixStr :: _ =>
    if addr = [] ∨ prefixStr = [] then .error (.error (js "invalid CIDR: '" ++ cidr ++ js "'"))
    else
      match natUpTo N 32 prefixStr with
      | none => .error (.error (js "invalid CIDR prefix length: '" ++ cidr ++ js "'"))
      | some prefixLen => do
        let hostBits : ℤ := 32 - prefixLen
        let mask := if hostBits = 32 then 0 else shiftRight (shiftLeft 0xffffffff hostBits) 0
        let networkInt := shiftRight (bitAnd (← ipToInt N addr) mask) 0
        let broadcastInt := if hostBits = 32 then 0xffffffff else shiftRight (bitOr networkInt (shiftRight (bitNot mask) 0)) 0
        return ⟨networkInt, broadcastInt, prefixLen⟩
  | _ => .error (.error (js "invalid CIDR: '" ++ cidr ++ js "'"))

/-- The address that is left out, if one is given. -/
def excludeInt (exclude : JsString) : Except JsError (Option ℤ) :=
  if exclude = [] then .ok none else (ipToInt N exclude).map some

/-- `hostsInCidr`. The loop counts from the number after the network's up to the broadcast number. -/
def hostsInCidr (cidr exclude : JsString) : Except JsError (List JsString) := do
  let parsed ← parseCidr N cidr
  let excluded ← excludeInt N exclude
  if 31 ≤ parsed.prefixLen then return []
  return (((List.range (parsed.broadcastInt - (parsed.networkInt + 1)).toNat).map fun i : ℕ => parsed.networkInt + 1 + i).filter
    fun n => excluded ≠ some n).map intToIp

/-- `isIpInCidr`. -/
def isIpInCidr (ip cidr : JsString) : Except JsError Bool := do
  let parsed ← parseCidr N cidr
  let n ← ipToInt N ip
  return decide (parsed.networkInt ≤ n ∧ n ≤ parsed.broadcastInt)

end Source

/-! ### The words behind the numbers -/

section Words

variable {N : Numerals}

theorem bits_ofNat (n : ℕ) : bits (n : ℤ) = n.toUInt32 := by
  apply UInt32.toBitVec_inj.mp
  rw [bits, BitVec.ofInt_natCast]
  rfl

/-- Numbers are the same as words. -/
theorem ipToInt_eq (ip : JsString) : ipToInt N ip = (Orchestrator.ipToInt N ip).map fun w => (w.toNat : ℤ) := by
  unfold ipToInt Orchestrator.ipToInt
  generalize (split ip 46).mapM (natUpTo N 255) = parts
  rcases parts with - | (- | ⟨a, - | ⟨b, - | ⟨c, - | ⟨d, - | ⟨e, rest⟩⟩⟩⟩⟩)
  · rfl
  · rfl
  · rfl
  · rfl
  · rfl
  · simp only [shiftRight_zero, bits_bitOr, bits_shiftLeft, bits_ofNat]
    rfl
  · rfl

theorem excludeInt_eq (exclude : JsString) :
    excludeInt N exclude = (Orchestrator.excludeInt N exclude).map (Option.map fun w => (w.toNat : ℤ)) := by
  unfold excludeInt Orchestrator.excludeInt
  split
  · rfl
  · rw [ipToInt_eq]
    cases Orchestrator.ipToInt N exclude <;> rfl

theorem Decimal.ofInt_natCast (n : ℕ) : Decimal.ofInt n = Decimal.ofNat n := by
  unfold Decimal.ofInt Decimal.ofParts Decimal.ofNat
  simp only [Int.natAbs_natCast, show decide ((n : ℤ) < 0) = false from decide_eq_false (by omega)]

theorem intText_natCast {n : ℕ} (hn : n < 10 ^ 21) : intText n = natToString n := by
  rw [intText, Decimal.ofInt_natCast, numberToString_of_natOf (natOf_ofNat n) hn]

theorem intToIp_eq (w : UInt32) : intToIp w.toNat = Orchestrator.intToIp w := by
  have hoctet : ∀ v : UInt32, intText (signed (v &&& 255)) = natToString (v &&& 255).toNat := by
    intro v
    have hlt : (v &&& 255).toNat ≤ 255 := by
      rw [UInt32.toNat_and]
      exact Nat.and_le_right
    rw [signed_of_lt (by omega), intText_natCast (by omega)]
  have hbits : ∀ x, bitAnd x 255 = signed (bits x &&& 255) := fun _ => rfl
  simp only [intToIp, Orchestrator.intToIp, hbits, bits_shiftRight, bits_natCast, List.map_cons, List.map_nil, hoctet]
  rfl

/-- The numbers of a range are its words. -/
def ParsedCidr.of (parsed : Orchestrator.ParsedCidr) : ParsedCidr :=
  ⟨parsed.networkInt.toNat, parsed.broadcastInt.toNat, parsed.prefixLen⟩

theorem parseCidr_eq (cidr : JsString) : parseCidr N cidr = (Orchestrator.parseCidr N cidr).map ParsedCidr.of := by
  unfold parseCidr Orchestrator.parseCidr
  rcases split cidr 47 with _ | ⟨addr, _ | ⟨prefixStr, rest⟩⟩
  · rfl
  · rfl
  · dsimp only
    split
    · rfl
    · cases hlen : natUpTo N 32 prefixStr with
      | none => rfl
      | some prefixLen =>
        have hle : prefixLen ≤ 32 := by
          unfold natUpTo at hlen
          simpa using (Option.filter_eq_some_iff.mp hlen).2
        have hhost : (32 - prefixLen : ℤ) = (32 - prefixLen : ℕ) := by omega
        have hall : (32 - prefixLen : ℤ) = 32 ↔ 32 - prefixLen = 32 := by omega
        dsimp only
        rw [ipToInt_eq]
        cases Orchestrator.ipToInt N addr with
        | error e => rfl
        | ok w =>
          simp only [Except.map, Except.bind, bind, pure, Except.pure, ParsedCidr.of, hall]
          split
          · simp only [shiftRight_zero, bits_bitAnd, bits_natCast]
            rfl
          · simp only [hhost, shiftRight_zero, bits_bitAnd, bits_bitOr, bits_bitNot, bits_shiftLeft, bits_ofNat, Nat.toUInt32,
              UInt32.ofNat_toNat]
            rfl

theorem hostsInCidr_eq (cidr exclude : JsString) : hostsInCidr N cidr exclude = Orchestrator.hostsInCidr N cidr exclude := by
  unfold hostsInCidr Orchestrator.hostsInCidr
  rw [parseCidr_eq, excludeInt_eq]
  cases Orchestrator.parseCidr N cidr with
  | error e => rfl
  | ok parsed =>
    cases Orchestrator.excludeInt N exclude with
    | error e => rfl
    | ok excluded =>
      simp only [Except.map, Except.bind, bind, pure, Except.pure, ParsedCidr.of]
      split
      · rfl
      · have hcount : (parsed.broadcastInt.toNat - (parsed.networkInt.toNat + 1) : ℤ).toNat =
            parsed.broadcastInt.toNat - (parsed.networkInt.toNat + 1) := by omega
        have hmax := parsed.broadcastInt.toNat_lt
        rw [hcount, List.range'_eq_map_range, List.filter_map, List.filter_map, List.map_map, List.map_map]
        -- each number of the loop is below `2 ^ 32`, and so the same as its word
        have hword : ∀ i ∈ List.range (parsed.broadcastInt.toNat - (parsed.networkInt.toNat + 1)),
            (parsed.networkInt.toNat + 1 + i : ℤ) = ((parsed.networkInt.toNat + 1 + i).toUInt32.toNat : ℤ) := by
          intro i hi
          have := List.mem_range.mp hi
          rw [Nat.toUInt32, UInt32.toNat_ofNat', Nat.mod_eq_of_lt (by omega)]
          norm_cast
        refine congrArg Except.ok ?_
        rw [List.filter_congr (q := (fun n => decide (excluded ≠ some n.toUInt32)) ∘ fun i => parsed.networkInt.toNat + 1 + i)]
        · refine List.map_congr_left fun i hi => ?_
          simp only [Function.comp_apply, hword i (List.mem_of_mem_filter hi), intToIp_eq]
        · intro i hi
          simp only [Function.comp_apply, hword i hi, decide_eq_decide]
          cases excluded with
          | none => simp
          | some e => simp only [Option.map_some, ne_eq, Option.some.injEq, Nat.cast_inj, UInt32.toNat_inj]

end Words

/-! ### Addresses -/

/-- An address: four numbers below 256. -/
structure Quad where
  a : UInt8
  b : UInt8
  c : UInt8
  d : UInt8

namespace Quad

/-- The address in writing. -/
def text (q : Quad) : JsString := join ([q.a, q.b, q.c, q.d].map fun part => natToString part.toNat) (js ".")

/-- The number of an address. -/
def value (q : Quad) : ℕ := ((q.a.toNat * 256 + q.b.toNat) * 256 + q.c.toNat) * 256 + q.d.toNat

/-- The address with a prefix length behind it. -/
def range (q : Quad) (len : ℕ) : JsString := q.text ++ 47 :: natToString len

/-- The address with its host bits cleared. -/
def network (q : Quad) (len : ℕ) : ℕ := 2 ^ (32 - len) * (q.value / 2 ^ (32 - len))

/-- The address with its host bits set. -/
def broadcast (q : Quad) (len : ℕ) : ℕ := q.network len + (2 ^ (32 - len) - 1)

variable (q : Quad)

theorem value_lt : q.value < 2 ^ 32 := by
  have := q.a.toNat_lt
  have := q.b.toNat_lt
  have := q.c.toNat_lt
  have := q.d.toNat_lt
  unfold value
  omega

theorem toNat_value : q.value.toUInt32.toNat = q.value := by
  rw [Nat.toUInt32, UInt32.toNat_ofNat', Nat.mod_eq_of_lt q.value_lt]

/-- The number is written as the address. -/
theorem intToIp_value : Orchestrator.intToIp q.value.toUInt32 = q.text := by
  have hoctet : ∀ k : UInt32, k.toNat < 32 →
      (q.value.toUInt32 >>> k &&& 255).toNat = q.value / 2 ^ k.toNat % 256 := by
    intro k hk
    rw [UInt32.toNat_and, UInt32.toNat_shiftRight, toNat_value, Nat.mod_eq_of_lt hk, Nat.shiftRight_eq_div_pow]
    exact Nat.and_two_pow_sub_one_eq_mod _ 8
  have hlast : (q.value.toUInt32 &&& 255).toNat = q.value % 256 := by
    rw [UInt32.toNat_and, toNat_value]
    exact Nat.and_two_pow_sub_one_eq_mod _ 8
  have := q.a.toNat_lt
  have := q.b.toNat_lt
  have := q.c.toNat_lt
  have := q.d.toNat_lt
  have ha : q.value / 2 ^ 24 % 256 = q.a.toNat := by unfold value; omega
  have hb : q.value / 2 ^ 16 % 256 = q.b.toNat := by unfold value; omega
  have hc : q.value / 2 ^ 8 % 256 = q.c.toNat := by unfold value; omega
  have hd : q.value % 256 = q.d.toNat := by unfold value; omega
  unfold Orchestrator.intToIp text
  simp only [List.map_cons, List.map_nil, hlast, hd]
  rw [hoctet 24 (by decide), hoctet 16 (by decide), hoctet 8 (by decide), ← ha, ← hb, ← hc]
  rfl

variable {N : Numerals}

theorem ipToInt_text : Orchestrator.ipToInt N q.text = .ok q.value.toUInt32 := by
  rw [← intToIp_value]
  exact ipToInt_intToIp _

/-- An address and its prefix length are told apart. -/
theorem split_range (len : ℕ) : split (q.range len) 47 = [q.text, natToString len] := by
  have hdigits : ∀ n, (47 : UInt16) ∉ natToString n := fun n => not_mem_of_digits (by decide) (isDigit_natToString n)
  have htext : (47 : UInt16) ∉ q.text := by
    rw [text, mem_join_iff (by decide)]
    rintro ⟨part, hpart, hmem⟩
    obtain ⟨n, -, rfl⟩ := List.mem_map.mp hpart
    exact hdigits _ hmem
  rw [range, split_append_cons htext, split_of_not_mem (hdigits len)]

theorem natToString_ne_nil (n : ℕ) : natToString n ≠ [] := by
  unfold natToString
  split
  · exact List.cons_ne_nil _ _
  · rename_i hn
    exact List.ne_nil_of_length_pos (digitsText_length_pos hn)

theorem text_ne_nil : q.text ≠ [] := by
  intro hnil
  have hread := q.ipToInt_text (N := .exact)
  rw [hnil] at hread
  cases hread

/-- **A range is read as the address with its host bits cleared and set.** -/
theorem parseCidr_range {len : ℕ} (hlen : len ≤ 32) : ∃ parsed, Orchestrator.parseCidr N (q.range len) = .ok parsed ∧
    parsed.prefixLen = len ∧ parsed.networkInt.toNat = q.network len ∧ parsed.broadcastInt.toNat = q.broadcast len := by
  unfold Orchestrator.parseCidr
  rw [split_range]
  dsimp only
  rw [if_neg (not_or.mpr ⟨q.text_ne_nil, natToString_ne_nil len⟩), natUpTo_natToString hlen (by decide), ipToInt_text]
  refine ⟨_, rfl, rfl, ?_⟩
  dsimp only
  unfold broadcast network
  by_cases hall : 32 - len = 32
  · rw [if_pos hall, if_pos hall, hall, Nat.div_eq_of_lt q.value_lt, UInt32.and_zero]
    exact ⟨rfl, rfl⟩
  · have hk : 32 - len < 32 := by omega
    rw [if_neg hall, if_neg hall, toNat_broadcast hk, toNat_network hk, toNat_value]
    exact ⟨rfl, rfl⟩

theorem broadcast_lt {len : ℕ} (hlen : len ≤ 32) : q.broadcast len < 2 ^ 32 := by
  obtain ⟨parsed, -, -, -, hbroadcast⟩ := q.parseCidr_range (N := .exact) hlen
  rw [← hbroadcast]
  exact parsed.broadcastInt.toNat_lt

theorem excludeInt_text (exclude : Option Quad) :
    Orchestrator.excludeInt N ((exclude.map text).getD []) = .ok (exclude.map fun x => x.value.toUInt32) := by
  cases exclude with
  | none => rfl
  | some x =>
    rw [Option.map_some, Option.getD_some, Orchestrator.excludeInt, if_neg x.text_ne_nil, ipToInt_text]
    rfl

end Quad

/-! ### What the functions compute -/

section Computes

variable {N : Numerals} (q : Quad) {len : ℕ}

theorem ipToInt_text : ipToInt N q.text = .ok q.value := by
  rw [ipToInt_eq, q.ipToInt_text, Except.map, q.toNat_value]

theorem intToIp_value : intToIp q.value = q.text := by
  have h := intToIp_eq q.value.toUInt32
  rwa [q.toNat_value, q.intToIp_value] at h

theorem ipToInt_intToIp_of_lt {n : ℕ} (hn : n < 2 ^ 32) : ipToInt N (intToIp n) = .ok n := by
  have hword : n.toUInt32.toNat = n := by rw [Nat.toUInt32, UInt32.toNat_ofNat', Nat.mod_eq_of_lt hn]
  rw [ipToInt_eq, ← hword, intToIp_eq, ipToInt_intToIp, Except.map]

theorem parseCidr_range (hlen : len ≤ 32) : parseCidr N (q.range len) = .ok ⟨q.network len, q.broadcast len, len⟩ := by
  obtain ⟨parsed, hparsed, hlong, hnetwork, hbroadcast⟩ := q.parseCidr_range (N := N) hlen
  rw [parseCidr_eq, hparsed, Except.map, ParsedCidr.of, hlong, hnetwork, hbroadcast]

/-- The addresses that are listed are those strictly between the network's and the broadcast address, but for the excluded one. -/
theorem hosts_of_range (hlen : len ≤ 32) (exclude : Option Quad) :
    ∃ ns : List ℕ, hostsInCidr N (q.range len) ((exclude.map Quad.text).getD []) = .ok (ns.map fun n : ℕ => intToIp n) ∧
      ns.Pairwise (· < ·) ∧ ∀ n, n ∈ ns ↔ q.network len < n ∧ n < q.broadcast len ∧ ∀ x ∈ exclude, n ≠ x.value := by
  obtain ⟨parsed, hparsed, -, hnetwork, hbroadcast⟩ := q.parseCidr_range (N := N) hlen
  have hexclude := Quad.excludeInt_text (N := N) exclude
  have hlisted : ∃ hosts, Orchestrator.hostsInCidr N (q.range len) ((exclude.map Quad.text).getD []) = .ok hosts := by
    unfold Orchestrator.hostsInCidr
    rw [hparsed, hexclude]
    simp only [bind, Except.bind]
    split <;> exact ⟨_, rfl⟩
  obtain ⟨hosts, hhosts⟩ := hlisted
  obtain ⟨ws, rfl, hsorted, hmem⟩ := hostsInCidr_ok hhosts
  have hbetween : ∀ w, w ∈ ws ↔ q.network len < w.toNat ∧ w.toNat < q.broadcast len ∧ ∀ x ∈ exclude, w.toNat ≠ x.value := by
    intro w
    rw [hmem, usableHost_intToIp, hparsed, hexclude]
    have hexcluded : exclude.map (fun x => x.value.toUInt32) ≠ some w ↔ ∀ x ∈ exclude, w.toNat ≠ x.value := by
      cases exclude with
      | none => simp
      | some x => simp [← UInt32.toNat_inj, x.toNat_value, eq_comm]
    rw [← hexcluded, ← hnetwork, ← hbroadcast]
    constructor
    · rintro ⟨_, _, hp, he, hlow, hhigh, hne⟩
      cases hp
      cases he
      exact ⟨UInt32.lt_iff_toNat_lt.mp hlow, UInt32.lt_iff_toNat_lt.mp hhigh, hne⟩
    · rintro ⟨hlow, hhigh, hne⟩
      exact ⟨parsed, _, rfl, rfl, UInt32.lt_iff_toNat_lt.mpr hlow, UInt32.lt_iff_toNat_lt.mpr hhigh, hne⟩
  refine ⟨ws.map UInt32.toNat, ?_, ?_, fun n => ?_⟩
  · rw [hostsInCidr_eq, hhosts, List.map_map]
    exact congrArg Except.ok (List.map_congr_left fun w _ => (intToIp_eq w).symm)
  · rw [List.pairwise_map]
    exact hsorted.imp fun h => UInt32.lt_iff_toNat_lt.mp h
  · rw [List.mem_map]
    constructor
    · rintro ⟨w, hw, rfl⟩
      exact (hbetween w).mp hw
    · rintro ⟨hlow, hhigh, hne⟩
      have hword : n.toUInt32.toNat = n := by
        rw [Nat.toUInt32, UInt32.toNat_ofNat', Nat.mod_eq_of_lt (hhigh.trans (q.broadcast_lt hlen))]
      exact ⟨n.toUInt32, (hbetween _).mpr (by rw [hword]; exact ⟨hlow, hhigh, hne⟩), hword⟩

theorem isIpInCidr_range (hlen : len ≤ 32) (ip : Quad) :
    isIpInCidr N ip.text (q.range len) = .ok (decide (q.network len ≤ ip.value ∧ ip.value ≤ q.broadcast len)) := by
  unfold isIpInCidr
  rw [parseCidr_range q hlen, ipToInt_text]
  refine congrArg Except.ok ?_
  simp only [Nat.cast_le]

/-- **The arithmetic of ranges**, for every address, prefix length and excluded address. -/
theorem cidr_arithmetic (N : Numerals) (q : Quad) {len : ℕ} (hlen : len ≤ 32) (exclude : Option Quad) :
    parseCidr N (q.range len) = .ok ⟨q.network len, q.broadcast len, len⟩ ∧ q.broadcast len < 2 ^ 32 ∧
      ipToInt N q.text = .ok q.value ∧ intToIp q.value = q.text ∧ (∀ n : ℕ, n < 2 ^ 32 → ipToInt N (intToIp n) = .ok n) ∧
      (∃ ns : List ℕ, hostsInCidr N (q.range len) ((exclude.map Quad.text).getD []) = .ok (ns.map fun n : ℕ => intToIp n) ∧
        ns.Pairwise (· < ·) ∧ (∀ n, n ∈ ns ↔ q.network len < n ∧ n < q.broadcast len ∧ ∀ x ∈ exclude, n ≠ x.value) ∧
        (31 ≤ len → ns = [])) ∧
      ∀ ip : Quad, isIpInCidr N ip.text (q.range len) = .ok (decide (q.network len ≤ ip.value ∧ ip.value ≤ q.broadcast len)) := by
  obtain ⟨ns, hhosts, hsorted, hmem⟩ := hosts_of_range (N := N) q hlen exclude
  refine ⟨parseCidr_range q hlen, q.broadcast_lt hlen, ipToInt_text q, intToIp_value q, fun n hn => ipToInt_intToIp_of_lt hn,
    ⟨ns, hhosts, hsorted, hmem, fun hlong => ?_⟩, fun ip => isIpInCidr_range q hlen ip⟩
  -- at most two addresses: the network's and the broadcast address
  have hpow : 2 ^ (32 - len) ≤ 2 ^ 1 := Nat.pow_le_pow_right (by decide) (by omega)
  refine List.eq_nil_iff_forall_not_mem.mpr fun n hn => ?_
  obtain ⟨hlow, hhigh, -⟩ := (hmem n).mp hn
  unfold Quad.broadcast at hhigh
  omega

/-- The range `192.168.1.77/24`, and its hosts without the gateway `192.168.1.1`. -/
theorem cidr_arithmetic_lan :
    parseCidr .exact (Quad.range ⟨192, 168, 1, 77⟩ 24) = .ok ⟨3232235776, 3232236031, 24⟩ ∧
    ∃ ns : List ℕ, hostsInCidr .exact (Quad.range ⟨192, 168, 1, 77⟩ 24) (Quad.text ⟨192, 168, 1, 1⟩) =
        .ok (ns.map fun n : ℕ => intToIp n) ∧ ns.Pairwise (· < ·) ∧
      ∀ n, n ∈ ns ↔ 3232235776 < n ∧ n < 3232236031 ∧ n ≠ 3232235777 := by
  have hnetwork : Quad.network ⟨192, 168, 1, 77⟩ 24 = 3232235776 := by decide
  have hbroadcast : Quad.broadcast ⟨192, 168, 1, 77⟩ 24 = 3232236031 := by decide
  have hgateway : Quad.value ⟨192, 168, 1, 1⟩ = 3232235777 := by decide
  obtain ⟨hparse, -, -, -, -, ⟨ns, hhosts, hsorted, hmem, -⟩, -⟩ :=
    cidr_arithmetic .exact ⟨192, 168, 1, 77⟩ (show 24 ≤ 32 by decide) (some ⟨192, 168, 1, 1⟩)
  rw [hnetwork, hbroadcast] at hparse
  refine ⟨hparse, ns, hhosts, hsorted, fun n => ?_⟩
  rw [hmem, hnetwork, hbroadcast, ← hgateway]
  simp

end Computes

end Wanfw.Orchestrator.Cidr
