import Pytusk.Chain.Events
import Pytusk.Lib.Uleb

/-!
# Decoding an event

The decoder reads by offsets; what it has read is a leading part of the bytes,
so every step splits one field off the rest. `Decomposes` is what all steps
together say. It determines the payload and where the bytes end, which is why
nothing that is accepted can be cut off or continued.
-/

namespace Pytusk.Events

open Pytusk.Lib

/-! ## Going on or returning `None` -/

section IfSome

variable {α β : Type} {x : Except PyExn (Option α)} {rest : α → Except PyExn (Option β)}

theorem ifSome_eq_some {b : β} :
    ifSome x rest = .ok (some b) ↔ ∃ a, x = .ok (some a) ∧ rest a = .ok (some b) := by
  rcases x with e | (_ | a)
  · simp [ifSome]
  · simp [ifSome]
  · simp [ifSome]

theorem ite_none_eq_some {p : Prop} [Decidable p] {y : Except PyExn (Option β)} {b : β} :
    (if p then return none else y) = .ok (some b) ↔ ¬ p ∧ y = .ok (some b) := by
  by_cases hp : p <;> simp [hp]

end IfSome

/-! ## Numbers -/

/-- The number at the head of the bytes and its length, of at most `limit`. -/
def splitUleb : (limit : Nat) → Bytes → Option (Nat × Nat)
  | 0, _ => none
  | _, [] => none
  | limit + 1, b :: rest =>
      if b.toNat < 128 then some (b.toNat, 1)
      else (splitUleb limit rest).map fun (n, length) => (b.toNat - 128 + 128 * n, length + 1)

theorem splitUleb_eq_some {limit n length : Nat} {bytes : Bytes} :
    splitUleb limit bytes = some (n, length) ↔
      ∃ head tail, bytes = head ++ tail ∧ Uleb head n ∧ head.length = length ∧
        length ≤ limit := by
  induction limit generalizing bytes n length with
  | zero =>
    refine iff_of_false (by simp [splitUleb]) ?_
    rintro ⟨head, tail, rfl, hn, rfl, hlimit⟩
    cases hn <;> simp at hlimit
  | succ limit ih =>
    cases bytes with
    | nil =>
      refine iff_of_false (by simp [splitUleb]) ?_
      rintro ⟨head, tail, heq, hn, -, -⟩
      cases hn <;> cases heq
    | cons b rest =>
      rw [splitUleb]
      by_cases hlow : b.toNat < 128
      · rw [if_pos hlow]
        constructor
        · intro h
          cases h
          exact ⟨[b], rest, rfl, .last hlow, rfl, by omega⟩
        · rintro ⟨head, tail, heq, hn, rfl, -⟩
          obtain ⟨rfl, rfl, -⟩ := (Uleb.last hlow).append_inj hn heq
          rfl
      · rw [if_neg hlow, Option.map_eq_some_iff]
        constructor
        · rintro ⟨⟨m, l⟩, hsplit, heq⟩
          cases heq
          obtain ⟨head, tail, rfl, hm, rfl, hlimit⟩ := ih.mp hsplit
          exact ⟨b :: head, tail, rfl, .more (by omega) hm, rfl, by omega⟩
        · rintro ⟨head, tail, heq, hn, rfl, hlimit⟩
          cases hn with
          | last hlow' =>
            cases heq
            omega
          | @more _ bytes m _ hm =>
            obtain ⟨rfl, rfl⟩ := List.cons_eq_cons.mp heq
            rw [List.length_cons] at hlimit
            exact ⟨(m, bytes.length), ih.mpr ⟨bytes, tail, rfl, hm, rfl, by omega⟩, rfl⟩

/-- The bits of the next seven are added, since the value is below them. -/
theorem or_shift_eq {value shift : Nat} (b : UInt8) (h : value < 2 ^ shift) :
    value ||| (b.toNat &&& 0x7F) <<< shift = value + b.toNat % 128 * 2 ^ shift := by
  have hbits : b.toNat &&& 0x7F = b.toNat % 128 := Nat.and_two_pow_sub_one_eq_mod _ 7
  rw [hbits, Nat.shiftLeft_eq, Nat.mul_comm (b.toNat % 128), Nat.or_comm,
    ← Nat.two_pow_add_eq_or_of_lt h]
  omega

theorem high_bit_iff (b : UInt8) : b.toNat &&& 0x80 = 0 ↔ b.toNat < 128 := by
  have hall : ∀ n : Fin 256, (n.val &&& 0x80 = 0 ↔ n.val < 128) := by decide +kernel
  exact hall ⟨b.toNat, b.toNat_lt⟩

/-- The loop reads the number at its index; `6 - k` groups are behind it. -/
theorem readUlebLoop_eq {raw : Bytes} {turns value k index : Nat}
    (hturns : raw.length - index ≤ turns) (hk : k < 6) (hvalue : value < 2 ^ (7 * k)) :
    readUlebLoop raw turns value (7 * k) index =
      .ok ((splitUleb (6 - k) (raw.drop index)).map fun (n, length) =>
        (value + n * 2 ^ (7 * k), index + length)) := by
  induction turns generalizing value k index with
  | zero =>
    rw [List.drop_of_length_le (by omega)]
    obtain ⟨limit, hlimit⟩ : ∃ limit, 6 - k = limit + 1 := ⟨5 - k, by omega⟩
    rw [hlimit]
    rfl
  | succ turns ih =>
    obtain ⟨limit, hlimit⟩ : ∃ limit, 6 - k = limit + 1 := ⟨5 - k, by omega⟩
    rw [readUlebLoop, hlimit]
    by_cases hindex : index < raw.length
    · have hbyte : byteAt raw index = .ok raw[index] := by
        rw [byteAt, List.getElem?_eq_getElem hindex]
      rw [if_pos hindex, hbyte, List.drop_eq_getElem_cons hindex, splitUleb]
      generalize raw[index] = b
      simp only [ok_bind, or_shift_eq b hvalue, high_bit_iff, pure_eq_ok]
      by_cases hlow : b.toNat < 128
      · rw [if_pos hlow, if_pos hlow, Option.map_some, Nat.mod_eq_of_lt hlow]
      · rw [if_neg hlow, if_neg hlow]
        have hb := b.toNat_lt
        have hgroup : b.toNat % 128 = b.toNat - 128 := by omega
        rcases Nat.lt_or_ge (k + 1) 6 with hmore | hlast
        · have hshift : ¬ 7 * k + 7 > 35 := by omega
          have hnext : value + b.toNat % 128 * 2 ^ (7 * k) < 2 ^ (7 * (k + 1)) := by
            have hpow : 2 ^ (7 * (k + 1)) = 128 * 2 ^ (7 * k) := by
              rw [Nat.mul_succ, Nat.pow_add, Nat.mul_comm]
            have := Nat.mul_le_mul_right (2 ^ (7 * k)) (show b.toNat % 128 ≤ 127 by omega)
            omega
          have hturns' : raw.length - (index + 1) ≤ turns := by omega
          have hrest := ih hturns' hmore hnext
          have hlimit' : 6 - (k + 1) = limit := by omega
          rw [if_neg hshift, show 7 * k + 7 = 7 * (k + 1) from rfl, hrest, hlimit',
            Option.map_map]
          congr 2
          funext ⟨n, length⟩
          have hpow : 2 ^ (7 * (k + 1)) = 128 * 2 ^ (7 * k) := by
            rw [Nat.mul_succ, Nat.pow_add, Nat.mul_comm]
          simp only [Function.comp_apply, Prod.mk.injEq]
          refine ⟨?_, by omega⟩
          rw [hgroup, hpow]
          ring
        · -- a sixth byte with its high bit set
          have hshift : 7 * k + 7 > 35 := by omega
          have hlimit' : limit = 0 := by omega
          rw [if_pos hshift, hlimit']
          rfl
    · rw [if_neg hindex, List.drop_of_length_le (by omega)]
      rfl

theorem readUleb_eq (raw : Bytes) (offset : Nat) :
    readUleb raw offset = .ok ((splitUleb 6 (raw.drop offset)).map fun (n, length) =>
      (n, offset + length)) := by
  rw [readUleb, readUlebLoop_eq (k := 0) (Nat.le_refl _) (by omega) (by omega)]
  congr 2
  funext ⟨n, length⟩
  simp

/-! ## Fields -/

/-- A field of its length and what it carries. -/
def LengthPrefixed (field run : Bytes) : Prop :=
  ∃ head, field = head ++ run ∧ Uleb head run.length ∧ head.length ≤ 6

theorem LengthPrefixed.append_inj {a b x y s t : Bytes} (ha : LengthPrefixed a x)
    (hb : LengthPrefixed b y) (h : a ++ s = b ++ t) : a = b ∧ x = y ∧ s = t := by
  obtain ⟨head, rfl, hx, -⟩ := ha
  obtain ⟨head', rfl, hy, -⟩ := hb
  rw [List.append_assoc, List.append_assoc] at h
  obtain ⟨rfl, hlen, h⟩ := hx.append_inj hy h
  obtain ⟨rfl, rfl⟩ := List.append_inj h hlen
  exact ⟨rfl, rfl, rfl⟩

section At

variable {before rest : Bytes}

theorem readUleb_at {n next : Nat} :
    readUleb (before ++ rest) before.length = .ok (some (n, next)) ↔
      ∃ head tail, rest = head ++ tail ∧ Uleb head n ∧ head.length ≤ 6 ∧
        next = before.length + head.length := by
  rw [readUleb_eq, List.drop_left, Except.ok.injEq, Option.map_eq_some_iff]
  constructor
  · rintro ⟨⟨n', length⟩, hsplit, heq⟩
    cases heq
    obtain ⟨head, tail, rfl, hn, rfl, hlimit⟩ := splitUleb_eq_some.mp hsplit
    exact ⟨head, tail, rfl, hn, hlimit, rfl⟩
  · rintro ⟨head, tail, rfl, hn, hlimit, rfl⟩
    exact ⟨(n, head.length), splitUleb_eq_some.mpr ⟨head, tail, rfl, hn, rfl, hlimit⟩, rfl⟩

theorem skipUlebBytes_at {next : Nat} :
    skipUlebBytes (before ++ rest) before.length = .ok (some next) ↔
      ∃ field run tail, rest = field ++ tail ∧ LengthPrefixed field run ∧
        next = before.length + field.length := by
  rw [skipUlebBytes, ifSome_eq_some]
  constructor
  · rintro ⟨⟨length, nextOffset⟩, hread, h⟩
    obtain ⟨head, tail, rfl, hn, hlimit, rfl⟩ := readUleb_at.mp hread
    simp only [pure_eq_ok, Except.ok.injEq, Option.ite_none_right_eq_some,
      List.length_append] at h
    obtain ⟨hfits, heq⟩ := h
    cases heq
    -- the run is the part of the tail that the length announces
    have htake : (tail.take length).length = length := by
      rw [List.length_take]
      omega
    refine ⟨head ++ tail.take length, tail.take length, tail.drop length, ?_,
      ⟨head, rfl, by rwa [htake], hlimit⟩, ?_⟩
    · rw [List.append_assoc, List.take_append_drop]
    · rw [List.length_append, htake]
      omega
  · rintro ⟨field, run, tail, rfl, ⟨head, rfl, hrun, hlimit⟩, rfl⟩
    have hread : readUleb (before ++ (head ++ run ++ tail)) before.length =
        .ok (some (run.length, before.length + head.length)) :=
      readUleb_at.mpr ⟨head, run ++ tail, by rw [List.append_assoc], hrun, hlimit, rfl⟩
    refine ⟨_, hread, ?_⟩
    simp only [pure_eq_ok, List.length_append]
    rw [if_pos (by omega)]
    congr 2
    omega

end At

section Field

variable {raw : Bytes} {offset : Nat}

theorem readUleb_field (before : Bytes) {head : Bytes} {n : Nat} (h : Uleb head n)
    (hlength : head.length ≤ 6) (hraw : before ++ head <+: raw)
    (hoffset : offset = before.length) :
    readUleb raw offset = .ok (some (n, offset + head.length)) := by
  obtain ⟨tail, rfl⟩ := hraw
  subst hoffset
  rw [List.append_assoc]
  exact readUleb_at.mpr ⟨head, tail, rfl, h, hlength, rfl⟩

theorem skipUlebBytes_field (before : Bytes) {field run : Bytes}
    (h : LengthPrefixed field run) (hraw : before ++ field <+: raw)
    (hoffset : offset = before.length) :
    skipUlebBytes raw offset = .ok (some (offset + field.length)) := by
  obtain ⟨tail, rfl⟩ := hraw
  subst hoffset
  rw [List.append_assoc]
  exact skipUlebBytes_at.mpr ⟨field, run, tail, rfl, h, rfl⟩

end Field

/-- The parts of an event around its payload: the calling package, the module
of the transaction, the sender and the address of the type, the module and
the name of the type, no type parameters, and the payload up to the end. -/
def Decomposes (raw payload : Bytes) : Prop :=
  ∃ packageId transactionModule addresses typeModule typeName count contents : Bytes,
    raw = packageId ++ (transactionModule ++ (addresses ++ (typeModule ++ (typeName ++
      (count ++ contents))))) ∧
    packageId.length = 32 ∧ (∃ run, LengthPrefixed transactionModule run) ∧
    addresses.length = 64 ∧ (∃ run, LengthPrefixed typeModule run) ∧
    (∃ run, LengthPrefixed typeName run) ∧ Uleb count 0 ∧ count.length ≤ 6 ∧
    LengthPrefixed contents payload

/-- What follows an event is part of no event. -/
theorem Decomposes.append {raw payload payload' suffix : Bytes} (h : Decomposes raw payload)
    (h' : Decomposes (raw ++ suffix) payload') : suffix = [] ∧ payload = payload' := by
  obtain ⟨packageId, transactionModule, addresses, typeModule, typeName, count, contents, rfl,
    hpackage, ⟨_, htransaction⟩, haddresses, ⟨_, hmodule⟩, ⟨_, hname⟩, hcount, -,
    hcontents⟩ := h
  obtain ⟨packageId', transactionModule', addresses', typeModule', typeName', count',
    contents', heq, hpackage', ⟨_, htransaction'⟩, haddresses', ⟨_, hmodule'⟩, ⟨_, hname'⟩,
    hcount', -, hcontents'⟩ := h'
  simp only [List.append_assoc] at heq
  -- field by field both decompositions are the same
  obtain ⟨rfl, heq₁⟩ := List.append_inj heq (by omega)
  obtain ⟨rfl, -, heq₂⟩ := htransaction.append_inj htransaction' heq₁
  obtain ⟨rfl, heq₃⟩ := List.append_inj heq₂ (by omega)
  obtain ⟨rfl, -, heq₄⟩ := hmodule.append_inj hmodule' heq₃
  obtain ⟨rfl, -, heq₅⟩ := hname.append_inj hname' heq₄
  obtain ⟨rfl, -, heq₆⟩ := hcount.append_inj hcount' heq₅
  rw [← List.append_nil contents'] at heq₆
  obtain ⟨-, rfl, rfl⟩ := hcontents.append_inj hcontents' heq₆
  exact ⟨rfl, rfl⟩

/-- The first `size` bytes. -/
theorem exists_append (raw : Bytes) (size : Nat) (h : size ≤ raw.length) :
    ∃ before rest, raw = before ++ rest ∧ before.length = size :=
  ⟨raw.take size, raw.drop size, (List.take_append_drop size raw).symm,
    by rw [List.length_take]; omega⟩

theorem decomposes_of_eventPayload {raw payload : Bytes}
    (h : eventPayload raw = .ok (some payload)) : Decomposes raw payload := by
  simp only [eventPayload, ite_none_eq_some, ifSome_eq_some] at h
  obtain ⟨hpackage, skipped, htransaction, haddresses, modulesEnd, hmodule, nameEnd, hname,
    ⟨typeParamCount, countEnd⟩, hcount, hzero, ⟨length, offset⟩, hlength, hend, hpayload⟩ := h
  dsimp only at hzero hlength hend hpayload
  obtain ⟨packageId, rest₁, rfl, hpackageLen⟩ := exists_append raw 32 (Nat.le_of_not_lt hpackage)
  rw [← hpackageLen] at htransaction
  obtain ⟨transactionModule, run₁, rest₂, rfl, hrun₁, rfl⟩ := skipUlebBytes_at.mp htransaction
  simp only [List.length_append] at haddresses
  obtain ⟨addresses, rest₃, rfl, haddressesLen⟩ :=
    exists_append rest₂ 64 (by omega)
  -- every further step starts behind what has been read
  have hoffset : packageId.length + transactionModule.length + 32 + 32 =
      (packageId ++ transactionModule ++ addresses).length := by
    simp only [List.length_append]
    omega
  simp only [hoffset, ← List.append_assoc] at hmodule hname hcount hlength hend hpayload
  obtain ⟨typeModule, run₂, rest₄, rfl, hrun₂, rfl⟩ := skipUlebBytes_at.mp hmodule
  simp only [← List.length_append, ← List.append_assoc] at hname hcount hlength hend hpayload
  obtain ⟨typeName, run₃, rest₅, rfl, hrun₃, rfl⟩ := skipUlebBytes_at.mp hname
  simp only [← List.length_append, ← List.append_assoc] at hcount hlength hend hpayload
  obtain ⟨count, rest₆, rfl, huleb, hcountLen, rfl⟩ := readUleb_at.mp hcount
  simp only [← List.length_append, ← List.append_assoc] at hlength hend hpayload
  obtain ⟨head, tail, rfl, hhead, hheadLen, rfl⟩ := readUleb_at.mp hlength
  -- the payload is all that is left
  rw [← List.length_append, ← List.append_assoc] at hend hpayload
  have htail : tail.length = length := by
    simp only [List.length_append] at hend
    omega
  rw [List.drop_left, List.take_of_length_le (by omega)] at hpayload
  obtain rfl : tail = payload := by simpa using hpayload
  have hzero : typeParamCount = 0 := not_not.mp hzero
  rw [hzero] at huleb
  rw [← htail] at hhead
  exact ⟨packageId, transactionModule, addresses, typeModule, typeName, count, head ++ tail,
    rfl, hpackageLen, ⟨run₁, hrun₁⟩, haddressesLen, ⟨run₂, hrun₂⟩,
    ⟨run₃, hrun₃⟩, huleb, hcountLen, head, rfl, hhead, hheadLen⟩

theorem eventPayload_of_decomposes {raw payload : Bytes} (h : Decomposes raw payload) :
    eventPayload raw = .ok (some payload) := by
  obtain ⟨packageId, transactionModule, addresses, typeModule, typeName, count, contents, hraw,
    hpackage, ⟨run₁, hrun₁⟩, haddresses, ⟨run₂, hrun₂⟩, ⟨run₃, hrun₃⟩, huleb, hcountLen,
    head, rfl, hhead, hheadLen⟩ := h
  -- where each step starts
  have hafterAddresses : 32 + transactionModule.length + 32 + 32 =
      (packageId ++ transactionModule ++ addresses).length := by
    simp only [List.length_append]
    omega
  have hafterModule := congrArg (· + typeModule.length) hafterAddresses
  have hafterName := congrArg (· + typeName.length) hafterModule
  have hafterCount := congrArg (· + count.length) hafterName
  have hafterHead := congrArg (· + head.length) hafterCount
  simp only [← List.length_append] at hafterModule hafterName hafterCount hafterHead
  have hlen := congrArg List.length hraw
  simp only [List.length_append] at hlen
  simp only [eventPayload, ite_none_eq_some, ifSome_eq_some]
  refine ⟨by omega, _, skipUlebBytes_field packageId hrun₁ ?_ hpackage.symm, by omega,
    _, skipUlebBytes_field _ hrun₂ ?_ hafterAddresses,
    _, skipUlebBytes_field _ hrun₃ ?_ hafterModule,
    _, readUleb_field _ huleb hcountLen ?_ hafterName, not_not.mpr rfl,
    _, readUleb_field _ hhead hheadLen ?_ hafterCount, by dsimp only; omega, ?_⟩
  iterate 5
    simp only [hraw, List.append_assoc, List.prefix_append_right_inj, List.prefix_append]
  have hpayload : raw = (packageId ++ transactionModule ++ addresses ++ typeModule ++ typeName ++
      count ++ head) ++ payload := by
    simp only [hraw, List.append_assoc]
  dsimp only
  rw [hafterHead, hpayload, List.drop_left, List.take_length]
  rfl

/-- **The payload is read** exactly where the bytes decompose. -/
theorem eventPayload_eq_some {raw payload : Bytes} :
    eventPayload raw = .ok (some payload) ↔ Decomposes raw payload :=
  ⟨decomposes_of_eventPayload, eventPayload_of_decomposes⟩

end Pytusk.Events
