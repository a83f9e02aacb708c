import Pytusk.RelayUpload.TipConfig

/-!
# The grammar of a tip config

What a relay's tip config is meant to look like, over an arbitrary notion of
an address, and what the parser makes of it. Its notion is wider than that of
a Sui address: `bytes.fromhex` skips whitespace between the bytes.
-/

namespace Pytusk.RelayUpload

open Pytusk.Lib

/-! ## Addresses -/

def IsHexDigit (c : Char) : Prop :=
  ('0' ≤ c ∧ c ≤ '9') ∨ ('a' ≤ c ∧ c ≤ 'f') ∨ ('A' ≤ c ∧ c ≤ 'F')

theorem isSome_hexDigit {c : Char} : (ObjectIds.hexDigit c).isSome = true ↔ IsHexDigit c := by
  unfold ObjectIds.hexDigit IsHexDigit
  split
  · rename_i h
    simp [h]
  · rename_i hdecimal
    split
    · rename_i h
      simp [h]
    · rename_i hlower
      split
      · rename_i h
        simp [h]
      · rename_i hupper
        simp [hdecimal, hlower, hupper]

/-- `0x` and one to 64 characters that satisfy `P`. -/
def Prefixed (P : List Char → Prop) (address : String) : Prop :=
  ∃ digits, address.toList = '0' :: 'x' :: digits ∧ digits ≠ [] ∧ digits.length ≤ 64 ∧ P digits

/-- A Sui address, perhaps without its leading zeros. -/
def IsAddress : String → Prop := Prefixed fun digits => ∀ c ∈ digits, IsHexDigit c

/-- `digits.rjust(64, "0")` -/
def padded (digits : List Char) : List Char :=
  List.replicate (64 - digits.length) '0' ++ digits

def IsRead : String → Prop :=
  Prefixed fun digits => (ObjectIds.fromHex (padded digits)).isSome = true

/-- Whitespace that `bytes.fromhex` skips stands among the digits. -/
def IsSpaced : String → Prop := Prefixed fun digits =>
  (ObjectIds.fromHex (padded digits)).isSome = true ∧ ∃ c ∈ digits, ObjectIds.isHexSpace c = true

theorem Prefixed.imp {P Q : List Char → Prop} {address : String}
    (h : ∀ digits, digits.length ≤ 64 → P digits → Q digits) (haddress : Prefixed P address) :
    Prefixed Q address := by
  obtain ⟨digits, htext, hne, hlength, hdigits⟩ := haddress
  exact ⟨digits, htext, hne, hlength, h digits hlength hdigits⟩

/-- Padded digits are 64 digits, so an even number of them. -/
theorem isSome_fromHex_padded {digits : List Char} (hlength : digits.length ≤ 64)
    (h : ∀ c ∈ digits, IsHexDigit c) : (ObjectIds.fromHex (padded digits)).isSome = true := by
  refine ObjectIds.isSome_fromHex_of_digits (n := 32) ?_ fun c hc => ?_
  · simp only [padded, List.length_append, List.length_replicate]
    omega
  · rcases List.mem_append.mp hc with hzero | hdigit
    · rw [List.eq_of_mem_replicate hzero]
      rfl
    · exact isSome_hexDigit.mpr (h c hdigit)

/-- **The parser's addresses**: those of the grammar and the spaced ones. -/
theorem isRead_iff {address : String} : IsRead address ↔ IsAddress address ∨ IsSpaced address := by
  constructor
  · rintro ⟨digits, htext, hne, hlength, hread⟩
    by_cases hspaced : ∃ c ∈ digits, ObjectIds.isHexSpace c = true
    · exact .inr ⟨digits, htext, hne, hlength, hread, hspaced⟩
    · push Not at hspaced
      refine .inl ⟨digits, htext, hne, hlength, fun c hc => ?_⟩
      rcases ObjectIds.digit_or_space_of_fromHex hread c (List.mem_append_right _ hc) with
        hdigit | hspace
      · exact isSome_hexDigit.mp hdigit
      · exact absurd hspace (hspaced c hc)
  · rintro (h | h)
    · exact h.imp fun _ => isSome_fromHex_padded
    · exact h.imp fun _ _ hread => hread.1

theorem not_isSpaced_of_isAddress {address : String} (h : IsAddress address) :
    ¬ IsSpaced address := by
  obtain ⟨digits, htext, -, -, hdigits⟩ := h
  rintro ⟨digits', htext', -, -, -, c, hc, hspace⟩
  obtain rfl : digits = digits' := by simpa using htext.symm.trans htext'
  have hdigit := isSome_hexDigit.mpr (hdigits c hc)
  rw [ObjectIds.hexDigit_of_isHexSpace hspace] at hdigit
  cases hdigit

/-! ## Configs -/

/-- The members of an object of a tip formula, and the formula. -/
inductive DenotesKind : Json → TipKind → Prop
  | const {amount : Nat} :
      DenotesKind (.dict [(Json.key "const", .int amount)]) (.constTip amount)
  | linear {fields : List (PyStr × Json)} {base multiplier : Nat}
      (hbase : Dict.get? fields (Json.key "base") = some (.int base))
      (hmultiplier :
        Dict.get? fields (Json.key "encoded_size_mul_per_kib") = some (.int multiplier)) :
      DenotesKind (.dict [(Json.key "linear", .dict fields)]) (.linearTip base multiplier)

/-- A tip config, whose addresses satisfy `Address`. -/
inductive DenotesConfig (Address : String → Prop) : Json → TipConfig → Prop
  | noTip : DenotesConfig Address (.str (Json.key "no_tip")) ⟨none, none⟩
  | sendTip {items body : List (PyStr × Json)} {address : String} {payload : Json}
      {kind : TipKind}
      (hitems : items ≠ [] ∧ ∀ item ∈ items, item.1 = Json.key "send_tip")
      (hbody : Dict.get? items (Json.key "send_tip") = some (.dict body))
      (haddress : Dict.get? body (Json.key "address") = some (.str (Json.key address)))
      (hvalid : Address address)
      (hpayload : Dict.get? body (Json.key "kind") = some payload)
      (hkind : DenotesKind payload kind) :
      DenotesConfig Address (.dict items) ⟨some address, some kind⟩

section Config

variable {P Q : String → Prop} {payload : Json} {config : TipConfig}

theorem DenotesConfig.valid (h : DenotesConfig P payload config) :
    ∀ address ∈ config.address, P address := by
  cases h with
  | noTip => simp
  | sendTip _ _ _ hvalid _ _ => simpa using hvalid

theorem DenotesConfig.imp (hPQ : ∀ address ∈ config.address, P address → Q address)
    (h : DenotesConfig P payload config) : DenotesConfig Q payload config := by
  cases h with
  | noTip => exact .noTip
  | sendTip hitems hbody haddress hvalid hpayload hkind =>
    exact .sendTip hitems hbody haddress (hPQ _ rfl hvalid) hpayload hkind

end Config

/-! ## The parser -/

/-- The classes `_parse_tip_config` documents. -/
def Refuses (e : PyExn) : Prop := e.isValueError = true ∨ e.isTypeError = true

section Parser

variable {repr : Json → String} {payload : Json}

theorem tipAmount_eq_ok {value : Json} {field : String} {n : Nat} :
    tipAmount repr value field = .ok n ↔ value = .int n := by
  unfold tipAmount
  split
  · rename_i m
    rw [ite_error_eq_ok]
    constructor
    · rintro ⟨hnonneg, h⟩
      cases h
      rw [Int.toNat_of_nonneg (by omega)]
    · intro h
      cases h
      exact ⟨by omega, rfl⟩
  · rename_i hvalue
    simp only [reduceCtorEq, false_iff]
    exact hvalue n

theorem tipAmount_raises (value : Json) (field : String) :
    OnlyRaises Refuses (tipAmount repr value field) := by
  unfold tipAmount
  split
  · split
    · exact onlyRaises_error (.inl rfl)
    · exact onlyRaises_ok _
  · exact onlyRaises_error (.inr rfl)

theorem tipField_eq_ok {what name : String} {body : List (PyStr × Json)} {value : Json} :
    tipField what body name = .ok value ↔ Dict.get? body (Json.key name) = some value := by
  unfold tipField
  cases Dict.get? body (Json.key name) with
  | none => simp
  | some found => simp

theorem tipField_raises (what name : String) (body : List (PyStr × Json)) :
    OnlyRaises Refuses (tipField what body name) := by
  unfold tipField
  split
  · exact onlyRaises_ok _
  · exact onlyRaises_error (.inl rfl)

theorem parseTipKind_eq_ok {kind : TipKind} :
    parseTipKind repr payload = .ok kind ↔ DenotesKind payload kind := by
  constructor
  · intro h
    unfold parseTipKind at h
    split at h
    · rename_i tag body
      split at h
      · rename_i htag
        obtain ⟨amount, hamount, hkind⟩ := bind_eq_ok.mp h
        cases hkind
        rw [htag, tipAmount_eq_ok.mp hamount]
        exact .const
      · split at h
        · rename_i htag
          split at h
          · obtain ⟨baseValue, hbaseValue, h⟩ := bind_eq_ok.mp h
            obtain ⟨multiplierValue, hmultiplierValue, h⟩ := bind_eq_ok.mp h
            obtain ⟨base, hbase, h⟩ := bind_eq_ok.mp h
            obtain ⟨multiplier, hmultiplier, h⟩ := bind_eq_ok.mp h
            cases h
            rw [tipAmount_eq_ok] at hbase hmultiplier
            subst hbase hmultiplier htag
            exact .linear (tipField_eq_ok.mp hbaseValue) (tipField_eq_ok.mp hmultiplierValue)
          · cases h
        · cases h
    · cases h
  · intro h
    cases h with
    | const =>
      simp only [parseTipKind, if_true, tipAmount_eq_ok.mpr rfl]
      rfl
    | linear hbase hmultiplier =>
      have hne : Json.key "linear" ≠ Json.key "const" := by decide
      simp only [parseTipKind, hne, if_false, if_true, tipField_eq_ok.mpr hbase,
        tipField_eq_ok.mpr hmultiplier, ok_bind, tipAmount_eq_ok.mpr rfl]
      rfl

theorem parseTipKind_raises : OnlyRaises Refuses (parseTipKind repr payload) := by
  unfold parseTipKind
  split
  · split
    · exact (tipAmount_raises _ _).bind fun _ _ => onlyRaises_ok _
    · split
      · split
        · exact (tipField_raises _ _ _).bind fun _ _ => (tipField_raises _ _ _).bind fun _ _ =>
            (tipAmount_raises _ _).bind fun _ _ =>
              (tipAmount_raises _ _).bind fun _ _ => onlyRaises_ok _
        · exact onlyRaises_error (.inl rfl)
      · exact onlyRaises_error (.inl rfl)
  · exact onlyRaises_error (.inl rfl)

/-- `bytes.fromhex` does not raise: no surrogate, and the padded digits read. -/
theorem isHex_eq_true {digits : PyStr} :
    isHex digits = true ↔ ∃ chars : List Char, digits = chars.map PyStr.ofChar ∧
      (ObjectIds.fromHex (padded chars)).isSome = true := by
  unfold isHex
  constructor
  · intro h
    split at h
    · rename_i chars hchars
      exact ⟨chars, (PyStr.map_ofChar_of_mapM hchars).symm, h⟩
    · cases h
  · rintro ⟨chars, rfl, hread⟩
    rw [PyStr.mapM_toChar?_ofChar]
    exact hread

theorem tipAddress_eq_ok {value : Json} {address : PyStr} :
    tipAddress repr value = .ok address ↔
      ∃ text, value = .str address ∧ address = Json.key text ∧ IsRead text := by
  constructor
  · intro h
    unfold tipAddress at h
    split at h
    · rename_i s
      obtain ⟨_, hprefix, h⟩ := bind_eq_ok.mp h
      obtain ⟨_, hlength, h⟩ := bind_eq_ok.mp h
      obtain ⟨_, hhex, h⟩ := bind_eq_ok.mp h
      cases h
      rw [raiseIf_eq_ok, not_not] at hprefix
      rw [raiseIf_eq_ok, not_or, not_lt] at hlength
      rw [raiseIf_eq_ok, Bool.not_eq_false, isHex_eq_true] at hhex
      obtain ⟨rest, rfl⟩ := hprefix
      obtain ⟨digits, hdigits, hread⟩ := hhex
      obtain rfl : rest = digits.map PyStr.ofChar := hdigits
      refine ⟨String.ofList ('0' :: 'x' :: digits), rfl, ?_, digits, by simp, ?_, ?_, hread⟩
      · simp [Json.key]
      · rintro rfl
        exact hlength.1 rfl
      · simpa [Json.key] using hlength.2
    · cases h
  · rintro ⟨text, rfl, rfl, digits, htext, hne, hlength, hread⟩
    have hkey : Json.key text = Json.key "0x" ++ digits.map PyStr.ofChar := by
      rw [Json.key, htext]
      rfl
    have hdrop : (Json.key text).drop 2 = digits.map PyStr.ofChar := by
      rw [hkey]
      rfl
    unfold tipAddress
    dsimp only
    rw [hdrop]
    refine bind_eq_ok.mpr ⟨(), raiseIf_eq_ok.mpr ?_, bind_eq_ok.mpr ⟨(), raiseIf_eq_ok.mpr ?_,
      bind_eq_ok.mpr ⟨(), raiseIf_eq_ok.mpr ?_, rfl⟩⟩⟩
    · exact not_not.mpr (hkey ▸ List.prefix_append _ _)
    · simpa using ⟨hne, hlength⟩
    · simpa using isHex_eq_true.mpr ⟨digits, rfl, hread⟩

theorem tipAddress_raises (value : Json) : OnlyRaises Refuses (tipAddress repr value) := by
  unfold tipAddress
  split
  · exact (onlyRaises_raiseIf (.inl rfl)).bind fun _ _ =>
      (onlyRaises_raiseIf (.inl rfl)).bind fun _ _ =>
        (onlyRaises_raiseIf (.inl rfl)).bind fun _ _ => onlyRaises_ok _
  · exact onlyRaises_error (.inr rfl)

/-- **What the parser accepts**: the grammar over its own notion of an address. -/
theorem parseTipConfig_eq_ok {config : TipConfig} :
    parseTipConfig repr payload = .ok config ↔ DenotesConfig IsRead payload config := by
  constructor
  · intro h
    unfold parseTipConfig at h
    dsimp only at h
    split at h
    · split at h
      · rename_i htag
        cases h
        rw [htag]
        exact .noTip
      · cases h
    · split at h
      · rename_i hitems
        split at h
        · rename_i body hbody
          obtain ⟨addressValue, haddressValue, h⟩ := bind_eq_ok.mp h
          obtain ⟨kindValue, hkindValue, h⟩ := bind_eq_ok.mp h
          obtain ⟨address, haddress, h⟩ := bind_eq_ok.mp h
          obtain ⟨kind, hkind, h⟩ := bind_eq_ok.mp h
          cases h
          obtain ⟨text, rfl, rfl, hread⟩ := tipAddress_eq_ok.mp haddress
          have htext : String.ofList ((Json.key text).filterMap PyStr.toChar?) = text :=
            PyStr.textOf_ofChar text
          rw [htext]
          exact .sendTip hitems hbody (tipField_eq_ok.mp haddressValue) hread
            (tipField_eq_ok.mp hkindValue) (parseTipKind_eq_ok.mp hkind)
        · cases h
        · cases h
      · cases h
    · cases h
  · intro h
    cases h with
    | noTip => simp [parseTipConfig]
    | @sendTip items body address kindPayload kind hitems hbody haddress hvalid hpayload hkind =>
      have htext : String.ofList ((Json.key address).filterMap PyStr.toChar?) = address :=
        PyStr.textOf_ofChar address
      unfold parseTipConfig
      dsimp only
      rw [if_pos hitems, hbody]
      dsimp only
      rw [tipField_eq_ok.mpr haddress, ok_bind, tipField_eq_ok.mpr hpayload, ok_bind,
        tipAddress_eq_ok.mpr ⟨address, rfl, rfl, hvalid⟩, ok_bind,
        parseTipKind_eq_ok.mpr hkind, ok_bind, htext]
      rfl

theorem parseTipConfig_raises : OnlyRaises Refuses (parseTipConfig repr payload) := by
  unfold parseTipConfig
  dsimp only
  split
  · split
    · exact onlyRaises_ok _
    · exact onlyRaises_error (.inl rfl)
  · split
    · split
      · exact (tipField_raises _ _ _).bind fun _ _ => (tipField_raises _ _ _).bind fun _ _ =>
          (tipAddress_raises _).bind fun _ _ =>
            parseTipKind_raises.bind fun _ _ => onlyRaises_ok _
      · exact onlyRaises_error (.inl rfl)
      · exact onlyRaises_error (.inl rfl)
    · exact onlyRaises_error (.inl rfl)
  · exact onlyRaises_error (.inl rfl)

end Parser

/-! ## Against the grammar -/

/-- A payload is accepted by the grammar, with what it denotes, and refused
with the documented errors. -/
def FollowsGrammar (repr : Json → String) (payload : Json) : Prop :=
  (∀ config, parseTipConfig repr payload = .ok config ↔
    DenotesConfig IsAddress payload config) ∧
  OnlyRaises Refuses (parseTipConfig repr payload)

/-- A config whose address is well formed but for skipped whitespace. -/
def NamesSpacedAddress (payload : Json) : Prop :=
  ∃ address kind, DenotesConfig IsSpaced payload ⟨some address, kind⟩

/-- **The parser follows the grammar** on every payload but those that name an
address with whitespace in it. -/
theorem parseTipConfig_follows_iff (repr : Json → String) (payload : Json) :
    FollowsGrammar repr payload ↔ ¬ NamesSpacedAddress payload := by
  constructor
  · rintro ⟨haccepts, -⟩ ⟨address, kind, hspaced⟩
    have hread : parseTipConfig repr payload = .ok ⟨some address, kind⟩ :=
      parseTipConfig_eq_ok.mpr (hspaced.imp fun _ _ h => isRead_iff.mpr (.inr h))
    have hdenotes := (haccepts _).mp hread
    exact not_isSpaced_of_isAddress (hdenotes.valid address rfl) (hspaced.valid address rfl)
  · intro hspaced
    refine ⟨fun config => parseTipConfig_eq_ok.trans ⟨fun h => ?_, fun h => ?_⟩,
      parseTipConfig_raises⟩
    · refine h.imp fun address haddress hread => ?_
      refine (isRead_iff.mp hread).resolve_right fun hspacedAddress => hspaced ?_
      obtain ⟨_, kind⟩ := config
      cases haddress
      exact ⟨address, kind, h.imp fun address' haddress' _ => by
        cases haddress'
        exact hspacedAddress⟩
    · exact h.imp fun _ _ haddress => isRead_iff.mpr (.inl haddress)

/-- An address of two spaces and one byte. -/
def spacedPayload : Json :=
  .dict [(Json.key "send_tip", .dict [
    (Json.key "address", .str (Json.key "0x  ab")),
    (Json.key "kind", .dict [(Json.key "const", .int 7)])])]

theorem spacedPayload_accepted :
    (parseTipConfig (fun _ => "") spacedPayload = .ok ⟨some "0x  ab", some (.constTip 7)⟩ ∧
      ¬ IsAddress "0x  ab") ∧
    ¬ ∀ repr payload, FollowsGrammar repr payload := by
  have hspaced : IsSpaced "0x  ab" :=
    ⟨"  ab".toList, rfl, by decide, by decide, by decide, ' ', by decide, rfl⟩
  have hdenotes : DenotesConfig IsSpaced spacedPayload ⟨some "0x  ab", some (.constTip 7)⟩ :=
    .sendTip (by simp) rfl rfl hspaced rfl .const
  have hread : parseTipConfig (fun _ => "") spacedPayload =
      .ok ⟨some "0x  ab", some (.constTip 7)⟩ :=
    parseTipConfig_eq_ok.mpr (hdenotes.imp fun _ _ h => isRead_iff.mpr (.inr h))
  refine ⟨⟨hread, fun h => not_isSpaced_of_isAddress h hspaced⟩, fun h => ?_⟩
  obtain ⟨haccepts, -⟩ := h (fun _ => "") spacedPayload
  exact not_isSpaced_of_isAddress (((haccepts _).mp hread).valid _ rfl) hspaced

end Pytusk.RelayUpload
