import Pytusk.Lib.PyStr

/-!
# Base64

The URL-safe encoding without padding, and the lenient decoding of the
standard alphabet that `base64.b64decode` performs: characters outside the
alphabet are skipped, and a complete padding ends the input.
-/

namespace Pytusk.Lib.Base64

/-- Digit `n` of the URL-safe alphabet. -/
def urlDigit (n : Nat) : Char :=
  if n < 26 then Char.ofNat ('A'.toNat + n)
  else if n < 52 then Char.ofNat ('a'.toNat + (n - 26))
  else if n < 62 then Char.ofNat ('0'.toNat + (n - 52))
  else if n = 62 then '-' else '_'

/-- `base64.urlsafe_b64encode(..).rstrip(b"=")` -/
def encodeUrl : List UInt8 → List Char
  | [] => []
  | [a] => [urlDigit (a.toNat / 4), urlDigit (a.toNat % 4 * 16)]
  | [a, b] =>
      [urlDigit (a.toNat / 4), urlDigit (a.toNat % 4 * 16 + b.toNat / 16),
        urlDigit (b.toNat % 16 * 4)]
  | a :: b :: c :: rest =>
      urlDigit (a.toNat / 4) :: urlDigit (a.toNat % 4 * 16 + b.toNat / 16) ::
        urlDigit (b.toNat % 16 * 4 + c.toNat / 64) :: urlDigit (c.toNat % 64) ::
        encodeUrl rest

/-- The value of a character of the standard alphabet. -/
def digit? (c : CodePoint) : Option Nat :=
  let n := c.val
  if 65 ≤ n ∧ n ≤ 90 then some (n - 65)
  else if 97 ≤ n ∧ n ≤ 122 then some (n - 97 + 26)
  else if 48 ≤ n ∧ n ≤ 57 then some (n - 48 + 52)
  else if n = 43 then some 62
  else if n = 47 then some 63
  else none

/-- The loop of `binascii.a2b_base64`: `quadPos` digits of the current group
have been read, `left` is what they leave over for the next byte, and `pads`
padding characters were seen since the last digit. -/
def decodeLoop : (input : PyStr) → (quadPos left pads : Nat) → (out : List UInt8) →
    Except String (List UInt8)
  | [], 0, _, _, out => .ok out
  | [], 1, _, _, out =>
      let digits := out.length / 3 * 4 + 1
      .error <| s!"Invalid base64-encoded string: number of data characters " ++
        s!"({digits}) cannot be 1 more than a multiple of 4"
  | [], _, _, _, _ => .error "Incorrect padding"
  | c :: rest, quadPos, left, pads, out =>
      if c.val = 61 then
        if quadPos < 2 then decodeLoop rest quadPos left pads out
        else if quadPos + (pads + 1) ≥ 4 then .ok out
        else decodeLoop rest quadPos left (pads + 1) out
      else
        match digit? c, quadPos with
        | none, _ => decodeLoop rest quadPos left pads out
        | some v, 0 => decodeLoop rest 1 v 0 out
        | some v, 1 =>
            decodeLoop rest 2 (v % 16) 0 (out ++ [UInt8.ofNat (left * 4 + v / 16)])
        | some v, 2 =>
            decodeLoop rest 3 (v % 4) 0 (out ++ [UInt8.ofNat (left * 16 + v / 4)])
        | some v, _ => decodeLoop rest 0 0 0 (out ++ [UInt8.ofNat (left * 64 + v)])

/-- `base64.b64decode` of a string; an error is the text of the `ValueError`. -/
def decode (s : PyStr) : Except String (List UInt8) :=
  if s.all fun c => c.val < 128 then decodeLoop s 0 0 0 []
  else .error "string argument should contain only ASCII characters"

/-! ## URL-safe decoding -/

/-- The character of the standard alphabet that a URL-safe one stands for. -/
def standardChar (c : CodePoint) : CodePoint :=
  if c.val = 45 then 43 else if c.val = 95 then 47 else c

/-- `base64.urlsafe_b64decode` -/
def decodeUrl (s : PyStr) : Except String (List UInt8) := decode (s.map standardChar)

/-- Digit `n` as the decoder meets it. -/
private def digitChar (n : Nat) : CodePoint := standardChar (PyStr.ofChar (urlDigit n))

private theorem digitChar_spec {n : Nat} (h : n < 64) :
    digit? (digitChar n) = some n ∧ (digitChar n).val ≠ 61 ∧ (digitChar n).val < 128 := by
  have hall : ∀ k : Fin 64, digit? (digitChar k) = some k.val ∧ (digitChar k).val ≠ 61 ∧
      (digitChar k).val < 128 := by decide
  exact hall ⟨n, h⟩

/-- One digit at each place of its group. -/
private theorem decodeLoop_digitChar {n : Nat} (h : n < 64) (rest : PyStr) (left pads : Nat)
    (out : List UInt8) :
    decodeLoop (digitChar n :: rest) 0 left pads out = decodeLoop rest 1 n 0 out ∧
    decodeLoop (digitChar n :: rest) 1 left pads out =
      decodeLoop rest 2 (n % 16) 0 (out ++ [UInt8.ofNat (left * 4 + n / 16)]) ∧
    decodeLoop (digitChar n :: rest) 2 left pads out =
      decodeLoop rest 3 (n % 4) 0 (out ++ [UInt8.ofNat (left * 16 + n / 4)]) ∧
    decodeLoop (digitChar n :: rest) 3 left pads out =
      decodeLoop rest 0 0 0 (out ++ [UInt8.ofNat (left * 64 + n)]) := by
  obtain ⟨hdigit, hpad, -⟩ := digitChar_spec h
  simp only [decodeLoop, if_neg hpad, hdigit, and_self]

private theorem ofNat_eq {n : Nat} {b : UInt8} (h : n = b.toNat) : UInt8.ofNat n = b := by
  rw [h, UInt8.ofNat_toNat]

/-- How many padding characters complete the last group. -/
def paddingLength (bytes : List UInt8) : Nat := (3 - bytes.length % 3) % 3

private theorem decodeLoop_encodeUrl (bytes out : List UInt8) :
    decodeLoop ((encodeUrl bytes).map (fun c => standardChar (PyStr.ofChar c)) ++
      List.replicate (paddingLength bytes) 61) 0 0 0 out = .ok (out ++ bytes) := by
  have step := @decodeLoop_digitChar
  induction bytes using encodeUrl.induct generalizing out with
  | case1 => simp [encodeUrl, paddingLength, decodeLoop]
  | case2 a =>
    have ha := a.toNat_lt
    show decodeLoop (digitChar _ :: digitChar _ :: _) 0 0 0 out = _
    rw [(step (by omega) _ _ _ _).1, (step (by omega) _ _ _ _).2.1, ofNat_eq (b := a) (by omega)]
    rfl
  | case3 a b =>
    have ha := a.toNat_lt
    have hb := b.toNat_lt
    show decodeLoop (digitChar _ :: digitChar _ :: digitChar _ :: _) 0 0 0 out = _
    rw [(step (by omega) _ _ _ _).1, (step (by omega) _ _ _ _).2.1,
      (step (by omega) _ _ _ _).2.2.1, ofNat_eq (b := a) (by omega),
      ofNat_eq (b := b) (by omega), List.append_assoc]
    rfl
  | case4 a b c rest ih =>
    have ha := a.toNat_lt
    have hb := b.toNat_lt
    have hc := c.toNat_lt
    have hpadding : paddingLength (a :: b :: c :: rest) = paddingLength rest := by
      simp only [paddingLength, List.length_cons]
      omega
    rw [hpadding]
    show decodeLoop (digitChar _ :: digitChar _ :: digitChar _ :: digitChar _ :: (_ ++ _))
      0 0 0 out = _
    rw [(step (by omega) _ _ _ _).1, (step (by omega) _ _ _ _).2.1,
      (step (by omega) _ _ _ _).2.2.1, (step (by omega) _ _ _ _).2.2.2,
      ofNat_eq (b := a) (by omega), ofNat_eq (b := b) (by omega),
      ofNat_eq (b := c) (by omega)]
    have := ih (out ++ [a] ++ [b] ++ [c])
    rw [this]
    simp only [List.append_assoc, List.cons_append, List.nil_append]

theorem length_encodeUrl (bytes : List UInt8) :
    ((encodeUrl bytes).length + paddingLength bytes) % 4 = 0 := by
  induction bytes using encodeUrl.induct with
  | case1 => rfl
  | case2 a => simp [encodeUrl, paddingLength]
  | case3 a b => simp [encodeUrl, paddingLength]
  | case4 a b c rest ih =>
    simp only [encodeUrl, paddingLength, List.length_cons] at ih ⊢
    omega

private theorem encodeUrl_ascii (bytes : List UInt8) :
    ∀ c ∈ encodeUrl bytes, (standardChar (PyStr.ofChar c)).val < 128 := by
  have hdigit : ∀ n < 64, (standardChar (PyStr.ofChar (urlDigit n))).val < 128 :=
    fun n hn => (digitChar_spec hn).2.2
  induction bytes using encodeUrl.induct with
  | case1 => simp [encodeUrl]
  | case2 a =>
    have ha := a.toNat_lt
    simp only [encodeUrl, List.forall_mem_cons]
    exact ⟨hdigit _ (by omega), hdigit _ (by omega), by simp⟩
  | case3 a b =>
    have ha := a.toNat_lt
    have hb := b.toNat_lt
    simp only [encodeUrl, List.forall_mem_cons]
    exact ⟨hdigit _ (by omega), hdigit _ (by omega), hdigit _ (by omega), by simp⟩
  | case4 a b c rest ih =>
    have ha := a.toNat_lt
    have hb := b.toNat_lt
    have hc := c.toNat_lt
    simp only [encodeUrl, List.forall_mem_cons]
    exact ⟨hdigit _ (by omega), hdigit _ (by omega), hdigit _ (by omega),
      hdigit _ (by omega), ih⟩

/-- **What was encoded is decoded**, once the padding is put back. -/
theorem decodeUrl_encodeUrl (bytes : List UInt8) :
    decodeUrl ((encodeUrl bytes).map PyStr.ofChar ++
      List.replicate (paddingLength bytes) 61) = .ok bytes := by
  have hpad : (List.replicate (paddingLength bytes) (61 : CodePoint)).map standardChar =
      List.replicate (paddingLength bytes) 61 := by
    rw [List.map_replicate]
    rfl
  have hloop := decodeLoop_encodeUrl bytes []
  rw [decodeUrl, List.map_append, List.map_map, hpad, decode, if_pos]
  · exact hloop
  · rw [List.all_append, Bool.and_eq_true]
    constructor
    · simp only [List.all_map, List.all_eq_true, Function.comp_apply, decide_eq_true_eq]
      exact encodeUrl_ascii bytes
    · simp only [List.all_eq_true, decide_eq_true_eq]
      intro c hc
      rw [List.eq_of_mem_replicate hc]
      decide

end Pytusk.Lib.Base64
