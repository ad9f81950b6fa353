import TunnelProxy.Lib.Reader
import TunnelProxy.Common.PublicHostname
import TunnelProxy.Control.Enrollment

/-!
# The token file and the journal of a rotation

An Agent keeps the token that authenticates its next request in one file, and the request
it is working on in another, the journal: the request id, the token that follows, the key
and the certificate request. Both are read back when a rotation is resumed.

* `readToken_tokenText` — what `write_token` writes is read as the same token
* `readToken_exact` — which files are read, and when reading one panics
* `decodePending_encode` — what `create_pending` writes is read as the same request
-/

namespace TunnelProxy.Agent

open Common BigEndian Control Control.Enrollment List

abbrev EnrollmentToken := FixedBytes 32

inductive EnrollmentErrorCode where
  | invalidRequest
  | unauthorized
  | tokenExpired
  | identityMismatch
  | invalidCsr
  | conflict
  | internal
  | credentialRevoked
  | requestExpired
deriving DecidableEq, Repr

inductive CredentialBundleError where
  | invalidPath
  | invalidMaterial
  | manifest
  | io
deriving DecidableEq, Repr

inductive AgentEnrollmentError where
  | invalidConfig
  | invalidServerCa
  | invalidServerName
  | invalidToken
  | connectTimeout
  | connect
  | handshakeTimeout
  | tls
  | alpn
  | requestTimeout
  | protocol
  | rejected (code : EnrollmentErrorCode)
  | unexpectedResponse
  | random
  | keyGeneration
  | pendingState
  | issuedCredential
  | issuedFingerprint
  | publish (error : CredentialBundleError)
  | activationTimeout
  | storage
  | storageTask
deriving DecidableEq, Repr

/-! ## The token file -/

/-- The characters with the property `White_Space`, as they are encoded. -/
def whitespace : List Text :=
  [[0x09], [0x0A], [0x0B], [0x0C], [0x0D], [0x20], [0xC2, 0x85], [0xC2, 0xA0],
    [0xE1, 0x9A, 0x80], [0xE2, 0x80, 0x80], [0xE2, 0x80, 0x81], [0xE2, 0x80, 0x82],
    [0xE2, 0x80, 0x83], [0xE2, 0x80, 0x84], [0xE2, 0x80, 0x85], [0xE2, 0x80, 0x86],
    [0xE2, 0x80, 0x87], [0xE2, 0x80, 0x88], [0xE2, 0x80, 0x89], [0xE2, 0x80, 0x8A],
    [0xE2, 0x80, 0xA8], [0xE2, 0x80, 0xA9], [0xE2, 0x80, 0xAF], [0xE2, 0x81, 0x9F],
    [0xE3, 0x80, 0x80]]

/-- Drops the characters from the front, at most `n` of them. -/
def strip (characters : List Text) : (n : Nat) → Text → Text
  | 0, text => text
  | n + 1, text =>
    match characters.find? (·.isPrefixOf text) with
    | none => text
    | some character => strip characters n (text.drop character.length)

/-- `str::trim` -/
def trim (text : Text) : Text :=
  let text := strip whitespace text.length text
  (strip (whitespace.map List.reverse) text.length text.reverse).reverse

/-- `u8::from_str_radix` of two characters, which allows a sign. -/
def fromHexPair (a b : UInt8) : Option UInt8 :=
  if a = 43 then (toDigit 16 b).map UInt8.ofNat
  else do
    let high ← toDigit 16 a
    let low ← toDigit 16 b
    return UInt8.ofNat (high * 16 + low)

/-- The loop of `read_token`. A slice that does not end between two characters panics, and
takes the worker with it. -/
def readPairs : Text → Except AgentEnrollmentError (List UInt8)
  | a :: b :: rest =>
    if Reader.isContinuation a ∨ rest.head?.any Reader.isContinuation then .error .storageTask
    else match fromHexPair a b with
      | none => .error .invalidToken
      | some byte => do
        let bytes ← readPairs rest
        return byte :: bytes
  | _ => .ok []

def readToken (file : List UInt8) : Except AgentEnrollmentError EnrollmentToken :=
  if !Reader.isUtf8 file then .error .storage
  else
    let text := trim file
    if text.length ≠ 64 then .error .invalidToken
    else do
      let bytes ← readPairs text
      if h : bytes.length = 32 then .ok ⟨bytes, h⟩ else .error .invalidToken

variable {error : AgentEnrollmentError} {n : Nat} {bytes : List UInt8} {text : Text}

theorem readPairs_eq_error (h : readPairs text = .error error) :
    error = .storageTask ∨ error = .invalidToken := by
  fun_induction readPairs text with
  | case1 a b rest hSplit => exact .inl (Except.error.inj h).symm
  | case2 a b rest hSplit hPair => exact .inr (Except.error.inj h).symm
  | case3 a b rest hSplit byte hPair ih =>
    rcases bind_eq_error.mp h with hRest | ⟨_, -, hDone⟩
    · exact ih hRest
    · cases hDone
  | case4 => cases h

theorem readToken_eq_error {file : List UInt8} (h : readToken file = .error error) :
    error = .storage ∨ error = .storageTask ∨ error = .invalidToken := by
  unfold readToken at h
  dsimp only at h
  split_ifs at h
  · exact .inl (Except.error.inj h).symm
  · exact .inr (.inr (Except.error.inj h).symm)
  · rcases bind_eq_error.mp h with hPairs | ⟨_, -, hDone⟩
    · exact .inr (readPairs_eq_error hPairs)
    · split_ifs at hDone
      exact .inr (.inr (Except.error.inj hDone).symm)

def hexDigit (n : Nat) : UInt8 := UInt8.ofNat (if n < 10 then 48 + n else 87 + n)

/-- `{byte:02x}` -/
def hexPair (byte : UInt8) : Text := [hexDigit (byte.toNat / 16), hexDigit (byte.toNat % 16)]

/-- What `write_token` writes. -/
def tokenText (token : EnrollmentToken) : List UInt8 := token.bytes.flatMap hexPair ++ [10]

theorem hexDigit_spec (h : n < 16) : toDigit 16 (hexDigit n) = some n ∧
    hexDigit n ≠ 43 ∧ hexDigit n < 0x80 ∧ [hexDigit n] ∉ whitespace := by
  have hAll : ∀ n : Fin 16, toDigit 16 (hexDigit n) = some n.val ∧
      hexDigit n ≠ 43 ∧ hexDigit n < 0x80 ∧ [hexDigit n] ∉ whitespace := by decide +kernel
  exact hAll ⟨n, h⟩

theorem hexPair_eq (byte : UInt8) : ∃ a b, hexPair byte = [a, b] ∧ fromHexPair a b = some byte ∧
    (a < 0x80 ∧ b < 0x80) ∧ [a] ∉ whitespace ∧ [b] ∉ whitespace := by
  have hByte : byte.toNat < 256 := byte.toNat_lt
  obtain ⟨hHigh, hSign, hAsciiA, hWhiteA⟩ := hexDigit_spec (n := byte.toNat / 16) (by omega)
  obtain ⟨hLow, -, hAsciiB, hWhiteB⟩ := hexDigit_spec (n := byte.toNat % 16) (by omega)
  refine ⟨_, _, rfl, ?_, ⟨hAsciiA, hAsciiB⟩, hWhiteA, hWhiteB⟩
  rw [fromHexPair, if_neg hSign, hHigh, hLow]
  show some (UInt8.ofNat (byte.toNat / 16 * 16 + byte.toNat % 16)) = some byte
  rw [Nat.div_add_mod', UInt8.ofNat_toNat]

/-- An ASCII character that is no white space ends the trimming. -/
theorem strip_of_ascii {characters : List Text} {a : UInt8} {rest : Text} (n : Nat)
    (hFirst : ∀ character ∈ characters, ∃ b tail, character = b :: tail ∧ a ≠ b) :
    strip characters n (a :: rest) = a :: rest := by
  cases n with
  | zero => rfl
  | succ =>
    have hNone : characters.find? (·.isPrefixOf (a :: rest)) = none := by
      refine find?_eq_none.mpr fun character hMem => ?_
      obtain ⟨_, _, rfl, hNe⟩ := hFirst character hMem
      simp [isPrefixOf, Ne.symm hNe]
    rw [strip, hNone]

/-- The first bytes of white space are white space themselves or not ASCII; so are the last
ones. -/
theorem ne_whitespace {a : UInt8} (hAscii : a < 0x80) (hNot : [a] ∉ whitespace) :
    (∀ character ∈ whitespace, ∃ b tail, character = b :: tail ∧ a ≠ b) ∧
      ∀ character ∈ whitespace.map List.reverse, ∃ b tail, character = b :: tail ∧ a ≠ b := by
  have hHeads : ∀ characters : List Text, (characters = whitespace ∨
      characters = whitespace.map List.reverse) → ∀ character ∈ characters,
        ∃ b tail, character = b :: tail ∧ ([b] ∈ whitespace ∨ 0x80 ≤ b) := by
    have hBoth : (whitespace ++ whitespace.map List.reverse).all
        (·.head?.any fun b => [b] ∈ whitespace || 0x80 ≤ b) = true := by decide +kernel
    intro _ hOr character hMem
    have hIn : character ∈ whitespace ++ whitespace.map List.reverse := by
      rcases hOr with rfl | rfl
      · exact mem_append_left _ hMem
      · exact mem_append_right _ hMem
    have hHead := all_eq_true.mp hBoth character hIn
    cases character with
    | nil => cases hHead
    | cons b tail =>
      exact ⟨b, tail, rfl, by simpa using hHead⟩
  have hNe : ∀ characters, (characters = whitespace ∨ characters = whitespace.map List.reverse) →
      ∀ character ∈ characters, ∃ b tail, character = b :: tail ∧ a ≠ b := by
    intro characters hOr character hMem
    obtain ⟨b, tail, rfl, hHead⟩ := hHeads characters hOr character hMem
    refine ⟨b, tail, rfl, ?_⟩
    rintro rfl
    rcases hHead with hWhite | hLarge
    · exact hNot hWhite
    · exact absurd hAscii (UInt8.not_lt.mpr hLarge)
  exact ⟨hNe _ (.inl rfl), hNe _ (.inr rfl)⟩

theorem length_flatMap_hexPair (bytes : List UInt8) :
    (bytes.flatMap hexPair).length = 2 * bytes.length := by
  simp [length_flatMap, hexPair, Nat.mul_comm]

theorem ascii_flatMap_hexPair {byte : UInt8} (h : byte ∈ bytes.flatMap hexPair) :
    byte < 0x80 ∧ [byte] ∉ whitespace := by
  obtain ⟨source, -, hMem⟩ := mem_flatMap.mp h
  obtain ⟨_, _, hPair, -, ⟨hA, hB⟩, hWhiteA, hWhiteB⟩ := hexPair_eq source
  rw [hPair] at hMem
  simp only [mem_cons, not_mem_nil, or_false] at hMem
  rcases hMem with rfl | rfl
  · exact ⟨hA, hWhiteA⟩
  · exact ⟨hB, hWhiteB⟩

theorem readPairs_flatMap (bytes : List UInt8) : readPairs (bytes.flatMap hexPair) = .ok bytes := by
  induction bytes with
  | nil => rfl
  | cons byte rest ih =>
    obtain ⟨a, b, hPair, hRead, ⟨hA, -⟩, -⟩ := hexPair_eq byte
    have hAscii : ∀ c : UInt8, c < 0x80 → Reader.isContinuation c = false := by
      intro _ hc
      simp only [Reader.isContinuation, Bool.and_eq_false_iff, decide_eq_false_iff_not]
      exact .inl (UInt8.not_le.mpr hc)
    have hNext : (rest.flatMap hexPair).head?.any Reader.isContinuation = false := by
      cases hHead : (rest.flatMap hexPair).head? with
      | none => rfl
      | some c =>
        have hMem := mem_of_mem_head? hHead
        exact hAscii c (ascii_flatMap_hexPair hMem).1
    rw [flatMap_cons, hPair]
    show readPairs (a :: b :: rest.flatMap hexPair) = _
    rw [readPairs, if_neg (by simp [hAscii a hA, hNext]), hRead]
    simp only [ih]
    rfl

/-- The newline is all that is trimmed. -/
theorem trim_tokenText (token : EnrollmentToken) :
    trim (tokenText token) = token.bytes.flatMap hexPair := by
  have hLength : (token.bytes.flatMap hexPair).length = 64 := by
    rw [length_flatMap_hexPair, token.length_eq]
  have hAscii : ∀ byte ∈ token.bytes.flatMap hexPair, byte < 0x80 ∧ [byte] ∉ whitespace :=
    fun byte hMem => ascii_flatMap_hexPair hMem
  unfold tokenText
  generalize token.bytes.flatMap hexPair = digits at hLength hAscii ⊢
  have hFront : strip whitespace (digits ++ [10]).length (digits ++ [10]) = digits ++ [10] := by
    cases digits with
    | nil => cases hLength
    | cons a =>
      obtain ⟨hA, hWhite⟩ := hAscii a mem_cons_self
      exact strip_of_ascii _ (ne_whitespace hA hWhite).1
  have hBack : strip (whitespace.map List.reverse) (digits ++ [10]).length
      (10 :: digits.reverse) = digits.reverse := by
    have hFind : (whitespace.map List.reverse).find? (·.isPrefixOf (10 :: digits.reverse)) =
        some [10] := by
      rfl
    rw [length_append, length_singleton, strip, hFind]
    show strip _ _ digits.reverse = digits.reverse
    cases hReverse : digits.reverse with
    | nil =>
      rw [reverse_eq_nil_iff] at hReverse
      rw [hReverse] at hLength
      cases hLength
    | cons a =>
      have hMem : a ∈ digits := mem_reverse.mp (hReverse ▸ mem_cons_self)
      obtain ⟨hA, hWhite⟩ := hAscii a hMem
      exact strip_of_ascii _ (ne_whitespace hA hWhite).2
  show (strip _ (strip whitespace (digits ++ [10]).length (digits ++ [10])).length
    (strip whitespace (digits ++ [10]).length (digits ++ [10])).reverse).reverse = digits
  rw [hFront, reverse_append, reverse_singleton, singleton_append, hBack,
    reverse_reverse]

@[simp]
theorem readToken_tokenText (token : EnrollmentToken) :
    readToken (tokenText token) = .ok token := by
  have hUtf8 : Reader.isUtf8 (tokenText token) = true := by
    refine Reader.isUtf8_of_ascii fun byte hMem => ?_
    rcases mem_append.mp hMem with hDigit | hNewline
    · exact (ascii_flatMap_hexPair hDigit).1
    · rw [mem_singleton.mp hNewline]
      decide
  have hLength : (token.bytes.flatMap hexPair).length = 64 := by
    rw [length_flatMap_hexPair, token.length_eq]
  unfold readToken
  simp only [hUtf8, Bool.not_true, Bool.false_eq_true, if_false, trim_tokenText, hLength,
    ne_eq, not_true_eq_false, readPairs_flatMap]
  exact dif_pos token.length_eq

theorem strip_induction {characters : List Text} {n : Nat} {P : Text → Prop}
    (hStep : ∀ c ∈ characters, ∀ text, P text → P (c ++ text)) (h : P (strip characters n text)) :
    P text := by
  fun_induction strip characters n text with
  | case1 | case2 => exact h
  | case3 n text character hFind ih =>
    have hFirst := find?_some hFind
    obtain ⟨rest, rfl⟩ := isPrefixOf_iff_prefix.mp hFirst
    rw [drop_left] at ih h
    exact hStep _ (mem_of_find?_eq_some hFind) _ (ih h)

theorem isUtf8_of_trim (h : Reader.isUtf8 (trim text)) : Reader.isUtf8 text := by
  have hWhite : ∀ c ∈ whitespace, Reader.isUtf8 c := by decide +kernel
  refine strip_induction (P := (Reader.isUtf8 ·)) (n := text.length)
    (fun c hc _ => Reader.isUtf8_append (hWhite c hc)) ?_
  rw [← reverse_reverse (strip _ _ _)]
  refine strip_induction (P := (Reader.isUtf8 ·.reverse)) ?_ h
  rintro _ hMem text hText
  obtain ⟨c, hc, rfl⟩ := mem_map.mp hMem
  rw [reverse_append, reverse_reverse]
  exact Reader.isUtf8_append hText (hWhite c hc)

/-- 64 hexadecimal digits. -/
def IsHexToken (text : Text) : Prop := text.length = 64 ∧ ∀ byte ∈ text, (toDigit 16 byte).isSome

/-- The slice of the pair at `i` begins or ends inside a character. -/
def Splits (text : Text) (i : Nat) : Prop :=
  text[2 * i]?.any Reader.isContinuation ∨ text[2 * i + 2]?.any Reader.isContinuation

/-- The pair at `i` is not two digits, and not a digit after a `+`. -/
def Refused (text : Text) (i : Nat) : Prop :=
  (∃ a, text[2 * i]? = some a ∧ a ≠ 43 ∧ toDigit 16 a = none) ∨
    ∃ b, text[2 * i + 1]? = some b ∧ toDigit 16 b = none

/-- A pair is refused before one splits a character, or no pair splits a character or begins
with a `+`. -/
def ReadAsDigits (text : Text) : Prop :=
  (∃ i, Refused text i ∧ ∀ j ≤ i, ¬Splits text j) ∨
    ∀ i, ¬Splits text i ∧ text[2 * i]? ≠ some 43

theorem fromHexPair_eq_none {a b : UInt8} :
    fromHexPair a b = none ↔ (a ≠ 43 ∧ toDigit 16 a = none) ∨ toDigit 16 b = none := by
  unfold fromHexPair
  split_ifs with hSign
  · simp [hSign]
  · cases toDigit 16 a <;> cases toDigit 16 b <;> simp [hSign]

/-- **The loop of `read_token`.** All pairs are read, or the first one that stops it is
refused, or it splits a character. -/
theorem readPairs_cases {n : Nat} (hLength : text.length = 2 * n) :
    (∃ bytes, readPairs text = .ok bytes ∧ bytes.length = n ∧
        ∀ i, ¬Splits text i ∧ ¬Refused text i) ∨
      (readPairs text = .error .invalidToken ∧ ∃ i, Refused text i ∧ ∀ j ≤ i, ¬Splits text j) ∨
      readPairs text = .error .storageTask ∧ ∃ i, Splits text i ∧ ∀ j < i, ¬Refused text j := by
  -- by induction on the number of pairs; the pair at `i + 1` is the one at `i` of the rest
  induction n generalizing text with
  | zero =>
    obtain rfl := length_eq_zero_iff.mp hLength
    exact .inl ⟨[], rfl, rfl, by simp [Splits, Refused]⟩
  | succ n ih =>
    obtain ⟨a, tail, rfl⟩ := exists_of_length_succ _ hLength
    obtain ⟨b, rest, rfl⟩ := exists_of_length_succ _ (Nat.succ.inj hLength)
    have hSplits : Splits (a :: b :: rest) 0 ↔
        Reader.isContinuation a ∨ rest.head?.any Reader.isContinuation := by
      simp [Splits, head?_eq_getElem?]
    have hRefused : Refused (a :: b :: rest) 0 ↔ fromHexPair a b = none := by
      simp [Refused, fromHexPair_eq_none]
    rw [readPairs]
    by_cases hSplit : Splits (a :: b :: rest) 0
    · rw [if_pos (hSplits.mp hSplit)]
      exact .inr (.inr ⟨rfl, 0, hSplit, nofun⟩)
    rw [if_neg (fun h => hSplit (hSplits.mpr h))]
    cases hPair : fromHexPair a b with
    | none =>
      refine .inr (.inl ⟨rfl, 0, hRefused.mpr hPair, fun j hj => ?_⟩)
      rwa [Nat.le_zero.mp hj]
    | some byte =>
      have hTaken : ¬Refused (a :: b :: rest) 0 := fun h => by simp [hRefused.mp h] at hPair
      show (∃ bytes, readPairs rest >>= _ = _ ∧ _) ∨ (readPairs rest >>= _ = _ ∧ _) ∨
        readPairs rest >>= _ = _ ∧ _
      rcases ih (Nat.succ.inj (Nat.succ.inj hLength)) with
        ⟨bytes, hRead, hBytes, hAll⟩ | ⟨hRead, i, hFirst, hBefore⟩ | ⟨hRead, i, hFirst, hBefore⟩
      · rw [hRead]
        refine .inl ⟨byte :: bytes, rfl, by rw [length_cons, hBytes], fun i => ?_⟩
        cases i with
        | zero => exact ⟨hSplit, hTaken⟩
        | succ i => exact hAll i
      · rw [hRead]
        refine .inr (.inl ⟨rfl, i + 1, hFirst, fun j hj => ?_⟩)
        cases j with
        | zero => exact hSplit
        | succ j => exact hBefore j (Nat.le_of_succ_le_succ hj)
      · rw [hRead]
        refine .inr (.inr ⟨rfl, i + 1, hFirst, fun j hj => ?_⟩)
        cases j with
        | zero => exact hTaken
        | succ j => exact hBefore j (Nat.lt_of_succ_lt_succ hj)

/-- The bytes of a text in pairs. -/
theorem forall_mem_iff_pairs {P : UInt8 → Prop} : (∀ byte ∈ text, P byte) ↔
    ∀ i byte, text[2 * i]? = some byte ∨ text[2 * i + 1]? = some byte → P byte := by
  constructor
  · rintro h i byte (hByte | hByte) <;> exact h byte (mem_of_getElem? hByte)
  · intro h byte hByte
    obtain ⟨k, hk⟩ := mem_iff_getElem?.mp hByte
    rcases Nat.even_or_odd' k with ⟨i, rfl | rfl⟩
    · exact h i byte (.inl hk)
    · exact h i byte (.inr hk)

/-- A hexadecimal token has no pair that is refused, and none with a sign. -/
theorem isHexToken_iff (hLength : text.length = 64) :
    IsHexToken text ↔ ∀ i, ¬Refused text i ∧ text[2 * i]? ≠ some 43 := by
  have hSign : toDigit 16 43 = none := by decide
  rw [IsHexToken, and_iff_right hLength, forall_mem_iff_pairs]
  refine forall_congr' fun i => ⟨fun h => ⟨?_, fun hPlus => ?_⟩, ?_⟩
  · rintro (⟨a, hA, -, hNone⟩ | ⟨b, hB, hNone⟩)
    · simpa [hNone] using h a (.inl hA)
    · simpa [hNone] using h b (.inr hB)
  · simpa [hSign] using h 43 (.inl hPlus)
  · rintro ⟨hTaken, hPlus⟩ byte hByte
    by_contra hNone
    rw [Option.not_isSome_iff_eq_none] at hNone
    rcases hByte with hA | hB
    · exact hTaken (.inl ⟨byte, hA, fun h => hPlus (h ▸ hA), hNone⟩)
    · exact hTaken (.inr ⟨byte, hB, hNone⟩)

/-- **The token file.** A file is read if and only if it is 64 digits between white space, and
reading it does not panic, except when it is a text of 64 bytes between white space in which
a pair splits a character before any is refused, or in which no pair is refused and one begins
with a `+`. Every token that was written is read. -/
theorem readToken_exact (file : List UInt8) :
    (((readToken file).isOk ↔ IsHexToken (trim file)) ∧ readToken file ≠ .error .storageTask ↔
      (Reader.isUtf8 file → (trim file).length = 64 → ReadAsDigits (trim file))) ∧
    ∀ token, readToken (tokenText token) = .ok token := by
  refine ⟨?_, readToken_tokenText⟩
  unfold readToken
  dsimp only
  split_ifs with hUtf8 hLength
  · -- digits between white space are valid text
    have hNot : ¬IsHexToken (trim file) := fun hHex => by
      have hAscii : ∀ byte, (toDigit 16 byte).isSome → byte < 0x80 := by decide +kernel
      rw [isUtf8_of_trim (Reader.isUtf8_of_ascii fun byte hByte =>
        hAscii byte (hHex.2 byte hByte))] at hUtf8
      cases hUtf8
    exact iff_of_true ⟨iff_of_false nofun hNot, nofun⟩ fun h => by simp [h] at hUtf8
  · exact iff_of_true ⟨iff_of_false nofun fun hHex => hLength hHex.1, nofun⟩
      fun _ h => absurd h hLength
  · have hLength : (trim file).length = 64 := Decidable.not_not.mp hLength
    have hText : Reader.isUtf8 file = true := by simpa using hUtf8
    rw [isHexToken_iff hLength]
    rcases readPairs_cases (n := 32) hLength with
      ⟨bytes, hRead, hBytes, hAll⟩ | ⟨hRead, i, hRefused, hBefore⟩ | ⟨hRead, i, hSplit, hBefore⟩
    · -- every pair was taken: what was read are digits unless there is a sign
      rw [hRead, ok_bind, dif_pos hBytes]
      refine ⟨fun h _ _ => .inr fun i => ⟨(hAll i).1, (h.1.mp rfl i).2⟩, fun h => ⟨?_, nofun⟩⟩
      refine iff_of_true rfl fun i => ⟨(hAll i).2, ?_⟩
      rcases h hText hLength with ⟨j, hRefused, -⟩ | hPlain
      · exact absurd hRefused (hAll j).2
      · exact (hPlain i).2
    · rw [hRead]
      exact iff_of_true ⟨iff_of_false nofun fun hHex => (hHex i).1 hRefused, nofun⟩
        fun _ _ => .inl ⟨i, hRefused, hBefore⟩
    · rw [hRead]
      refine iff_of_false (fun h => h.2 rfl) fun h => ?_
      rcases h hText hLength with ⟨j, hRefused, hNone⟩ | hPlain
      · rcases Nat.lt_or_ge j i with hLess | hLe
        · exact hBefore j hLess hRefused
        · exact hNone i hLe hSplit
      · exact (hPlain i).1 hSplit

/-- `+000…` is read as a token, and `aé00…` ends the worker. -/
theorem readToken_signed_or_split :
    (readToken (43 :: replicate 63 48)).isOk ∧ ¬IsHexToken (trim (43 :: replicate 63 48)) ∧
      readToken (97 :: 0xC3 :: 0xA9 :: replicate 61 48) = .error .storageTask := by
  refine ⟨by decide +kernel, fun h => ?_, by decide +kernel⟩
  exact absurd (h.2 43) (by decide +kernel)

/-! ## The journal -/

structure PendingEnrollment where
  requestId : EnrollmentRequestId
  nextToken : EnrollmentToken
  privateKeyPem : Text
  csrDer : List UInt8
  utf8 : Reader.isUtf8 privateKeyPem = true
deriving DecidableEq

/-- `TPENP1` -/
def pendingMagic : List UInt8 := [84, 80, 69, 78, 80, 49]

def maxPendingBytes : Nat := 128 * 1024

def encodePending (pending : PendingEnrollment) : List UInt8 :=
  pendingMagic ++ (pending.requestId.bytes ++ (pending.nextToken.bytes ++
    (be 4 pending.privateKeyPem.length ++ (pending.privateKeyPem ++
      (be 4 pending.csrDer.length ++ pending.csrDer)))))

/-- `take_array` -/
def takeArray (n : Nat) (input : List UInt8) :
    Except AgentEnrollmentError (FixedBytes n × List UInt8) :=
  if h : input.length < n then .error .pendingState
  else .ok (⟨input.take n, by rw [length_take]; omega⟩, input.drop n)

def decodePending (bytes : List UInt8) : Except AgentEnrollmentError PendingEnrollment :=
  if maxPendingBytes < bytes.length ∨ bytes.take 6 ≠ pendingMagic then .error .pendingState
  else do
    let (requestId, rest) ← takeArray 16 (bytes.drop 6)
    let (nextToken, rest) ← takeArray 32 rest
    let (keyLength, rest) ← Reader.number .pendingState 4 rest
    let (key, rest) ← Reader.takeBytes .pendingState keyLength rest
    let (csrLength, rest) ← Reader.number .pendingState 4 rest
    let (csr, rest) ← Reader.takeBytes .pendingState csrLength rest
    if !rest.isEmpty then .error .pendingState
    else if h : Reader.isUtf8 key = true then .ok ⟨requestId, nextToken, key, csr, h⟩
    else .error .pendingState

theorem takeArray_append (array : FixedBytes n) (rest : List UInt8) :
    takeArray n (array.bytes ++ rest) = .ok (array, rest) := by
  have hLength : ¬(array.bytes ++ rest).length < n := by
    rw [length_append, array.length_eq]
    omega
  unfold takeArray
  rw [dif_neg hLength]
  simp only [take_left' array.length_eq, drop_left' array.length_eq]

theorem takeArray_eq_error {input : List UInt8} (h : takeArray n input = .error error) :
    error = .pendingState := by
  unfold takeArray at h
  split_ifs at h
  exact (Except.error.inj h).symm

theorem decodePending_eq_error (h : decodePending bytes = .error error) :
    error = .pendingState := by
  unfold decodePending at h
  split_ifs at h
  · exact (Except.error.inj h).symm
  rcases bind_eq_error.mp h with hArray | ⟨_, -, h⟩
  · exact takeArray_eq_error hArray
  rcases bind_eq_error.mp h with hArray | ⟨_, -, h⟩
  · exact takeArray_eq_error hArray
  rcases bind_eq_error.mp h with hNumber | ⟨_, -, h⟩
  · exact Reader.number_eq_error hNumber
  rcases bind_eq_error.mp h with hTake | ⟨_, -, h⟩
  · exact Reader.takeBytes_eq_error hTake
  rcases bind_eq_error.mp h with hNumber | ⟨_, -, h⟩
  · exact Reader.number_eq_error hNumber
  rcases bind_eq_error.mp h with hTake | ⟨_, -, h⟩
  · exact Reader.takeBytes_eq_error hTake
  dsimp only at h
  split_ifs at h <;> exact (Except.error.inj h).symm

/-- The journal that fits into the size limit of `decode_pending`; the limit is far above
what a P-256 key and its certificate request need. -/
def PendingEnrollment.Fits (pending : PendingEnrollment) : Prop :=
  (encodePending pending).length ≤ maxPendingBytes

instance (pending : PendingEnrollment) : Decidable pending.Fits :=
  inferInstanceAs (Decidable (_ ≤ _))

theorem decodePending_encode {pending : PendingEnrollment} (hFits : pending.Fits) :
    decodePending (encodePending pending) = .ok pending := by
  have hParts : pending.privateKeyPem.length < 256 ^ 4 ∧ pending.csrDer.length < 256 ^ 4 := by
    unfold PendingEnrollment.Fits at hFits
    simp only [encodePending, length_append, length_be, maxPendingBytes] at hFits
    omega
  have hHeader : ¬(maxPendingBytes < (encodePending pending).length ∨
      (encodePending pending).take 6 ≠ pendingMagic) := by
    rintro (hLarge | hMagic)
    · exact absurd hFits (Nat.not_le.mpr hLarge)
    · exact hMagic rfl
  have hBody : (encodePending pending).drop 6 = pending.requestId.bytes ++
      (pending.nextToken.bytes ++ (be 4 pending.privateKeyPem.length ++ (pending.privateKeyPem ++
        (be 4 pending.csrDer.length ++ pending.csrDer)))) := rfl
  have hCsr : Reader.takeBytes AgentEnrollmentError.pendingState pending.csrDer.length
      pending.csrDer = .ok (pending.csrDer, []) := by
    have hTake : Reader.takeBytes AgentEnrollmentError.pendingState pending.csrDer.length
        (pending.csrDer ++ []) = .ok (pending.csrDer, []) := Reader.takeBytes_append rfl []
    rwa [append_nil] at hTake
  rw [decodePending, if_neg hHeader, hBody]
  rw [takeArray_append, ok_bind]
  dsimp only
  rw [takeArray_append, ok_bind]
  dsimp only
  rw [Reader.number_be hParts.1, ok_bind]
  dsimp only
  rw [Reader.takeBytes_append rfl, ok_bind]
  dsimp only
  rw [Reader.number_be hParts.2, ok_bind]
  dsimp only
  rw [hCsr, ok_bind]
  dsimp only
  rw [isEmpty_nil, if_neg (by decide), dif_pos pending.utf8]

end TunnelProxy.Agent
