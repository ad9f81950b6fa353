import TunnelProxy.Common.Identity

/-!
# Public hostnames

The canonical DNS name that Control Plane and Edge share: a name is normalised once, by
dropping one trailing dot and lowering its letters, and then checked. A `PublicHostname`
is a text that this leaves as it is.

The address test is the parser of the standard library, written over the bytes that are
left to read.

* `normalizeDnsHostname_eq_ok` — what is accepted and what it becomes
* `PublicHostname.new_text` — a hostname read back from its own text is the same
* `PublicHostname.new_exact` — the grammar that is accepted, and when two spellings are one name
-/

namespace TunnelProxy.Common

open Std List

/-! ## IP addresses -/

/-- `char::to_digit` -/
def toDigit (radix : Nat) (byte : UInt8) : Option Nat :=
  let value? : Option Nat :=
    if 48 ≤ byte ∧ byte ≤ 57 then some (byte.toNat - 48)
    else if 97 ≤ byte ∧ byte ≤ 122 then some (byte.toNat - 87)
    else if 65 ≤ byte ∧ byte ≤ 90 then some (byte.toNat - 55)
    else none
  value?.filter (· < radix)

def readGivenChar (byte : UInt8) : Text → Option Text
  | [] => none
  | first :: rest => if first = byte then some rest else none

/-- All digits there are; too many of them, too large a value and, unless it is allowed, a
zero in front are refused. Only what is left to read is kept. -/
def readNumber (radix maxDigits maxValue : Nat) (allowZeroPrefix : Bool) (input : Text) :
    Option Text :=
  let digits := input.takeWhile fun byte => (toDigit radix byte).isSome
  let value := digits.foldl (fun sum byte => sum * radix + (toDigit radix byte).getD 0) 0
  if digits.isEmpty || maxDigits < digits.length || maxValue < value then none
  else if !allowZeroPrefix && digits.head? = some 48 && 1 < digits.length then none
  else some (input.drop digits.length)

/-- `Parser::read_separator` -/
def readSeparator (separator : UInt8) (index : Nat) (inner : Text → Option Text)
    (input : Text) : Option Text :=
  if 0 < index then (readGivenChar separator input).bind inner else inner input

/-- The groups `index, index + 1, …` of an IPv4 address, `left` of them. -/
def readOctets (index : Nat) : (left : Nat) → Text → Option Text
  | 0, input => some input
  | left + 1, input =>
    (readSeparator 46 index (readNumber 10 3 255 false) input).bind (readOctets (index + 1) left)

def readIpv4Addr (input : Text) : Option Text := readOctets 0 4 input

/-- Up to `limit` groups of an IPv6 address, `left` of them to come, with an IPv4 address in
place of the last two if there is one: how many were read, whether they end in an IPv4
address, and the rest. -/
def readGroups (limit : Nat) : (left : Nat) → Text → Nat × Bool × Text
  | 0, input => (limit, false, input)
  | left + 1, input =>
    let index := limit - (left + 1)
    match if 0 < left then readSeparator 58 index readIpv4Addr input else none with
    | some rest => (index + 2, true, rest)
    | none =>
      match readSeparator 58 index (readNumber 16 4 65535 true) input with
      | some rest => readGroups limit left rest
      | none => (index, false, input)

def readIpv6Addr (input : Text) : Option Text :=
  let (headSize, headIpv4, rest) := readGroups 8 8 input
  if headSize = 8 then some rest
  -- an embedded IPv4 address ends the address: no `::` may follow
  else if headIpv4 then none
  else do
    let rest ← readGivenChar 58 rest
    let rest ← readGivenChar 58 rest
    let limit := 8 - (headSize + 1)
    some (readGroups limit limit rest).2.2

/-- `parse::<IpAddr>().is_ok()` -/
def isIpAddr (text : Text) : Bool :=
  (readIpv4Addr text <|> readIpv6Addr text) = some []

/-! ## Hostnames -/

def maxPublicHostnameBytes : Nat := 253

def maxDnsLabelBytes : Nat := 63

inductive PublicHostnameError where
  | empty
  | tooLong
  | invalidLabel
  | ipAddress
  | portNotAllowed
deriving DecidableEq, Repr

/-- `strip_suffix('.').unwrap_or(value)` -/
def stripDot (value : Text) : Text :=
  if value.getLast? = some 46 then value.dropLast else value

def asciiLower (byte : UInt8) : UInt8 := if 65 ≤ byte ∧ byte ≤ 90 then byte + 32 else byte

def toAsciiLowercase (value : Text) : Text := value.map asciiLower

def isDnsLabel (label : Text) : Bool :=
  !label.isEmpty && label.length ≤ maxDnsLabelBytes && label.head? ≠ some 45 &&
    label.getLast? ≠ some 45 && label.all fun byte => isAsciiAlphanumeric byte || byte = 45

def normalizeDnsHostname (value : Text) : Except PublicHostnameError Text :=
  if value.isEmpty then .error .empty
  else
    let normalized := toAsciiLowercase (stripDot value)
    if normalized.isEmpty then .error .empty
    else if isIpAddr normalized then .error .ipAddress
    else if 58 ∈ normalized then .error .portNotAllowed
    else if maxPublicHostnameBytes < normalized.length then .error .tooLong
    else if (normalized.splitOn 46).any (!isDnsLabel ·) then .error .invalidLabel
    else .ok normalized

/-- A text that passes every check of `normalizeDnsHostname`. -/
structure IsDnsHostname (text : Text) : Prop where
  nonempty : text ≠ []
  notAddress : isIpAddr text = false
  noPort : 58 ∉ text
  short : text.length ≤ maxPublicHostnameBytes
  labels : ∀ label ∈ text.splitOn 46, isDnsLabel label

variable {text : Text}

variable {value : Text} {hostname : PublicHostname}

theorem normalizeDnsHostname_eq_ok : normalizeDnsHostname value = .ok text ↔
      text = toAsciiLowercase (stripDot value) ∧ IsDnsHostname text := by
  unfold normalizeDnsHostname
  dsimp only
  split_ifs with hValue hEmpty hAddress hPort hLong hLabel
  · -- an empty value has an empty normal form
    obtain rfl : value = [] := isEmpty_iff.mp hValue
    exact ⟨nofun, fun ⟨hText, hHost⟩ => absurd hText hHost.nonempty⟩
  · exact ⟨nofun,
      fun ⟨hText, hHost⟩ => absurd (hText.trans (isEmpty_iff.mp hEmpty)) hHost.nonempty⟩
  · refine ⟨nofun, ?_⟩
    rintro ⟨rfl, hHost⟩
    rw [hHost.notAddress] at hAddress
    cases hAddress
  · refine ⟨nofun, ?_⟩
    rintro ⟨rfl, hHost⟩
    exact absurd hPort hHost.noPort
  · refine ⟨nofun, ?_⟩
    rintro ⟨rfl, hHost⟩
    exact absurd hLong (Nat.not_lt.mpr hHost.short)
  · refine ⟨nofun, ?_⟩
    rintro ⟨rfl, hHost⟩
    obtain ⟨label, hMem, hBad⟩ := any_eq_true.mp hLabel
    simp [hHost.labels label hMem] at hBad
  · constructor
    · intro h
      cases h
      refine ⟨rfl, ?_, by simpa using hAddress, hPort, Nat.not_lt.mp hLong, ?_⟩
      · simpa using hEmpty
      · simpa using hLabel
    · rintro ⟨rfl, -⟩
      rfl

theorem asciiLower_asciiLower : ∀ byte, asciiLower (asciiLower byte) = asciiLower byte := by
  decide +kernel

/-- The last label is not empty, so the name does not end in a dot. -/
theorem IsDnsHostname.getLast?_ne (h : IsDnsHostname text) : text.getLast? ≠ some 46 := by
  intro hDot
  obtain ⟨init, rfl⟩ := getLast?_eq_some_iff.mp hDot
  have hLast : [] ∈ (init ++ [46]).splitOn 46 := by
    simp [splitOn, splitOnP_append_cons]
  cases h.labels [] hLast

theorem IsDnsHostname.stripDot_eq (h : IsDnsHostname text) : stripDot text = text :=
  if_neg h.getLast?_ne

/-- Normalising is idempotent. -/
theorem normalizeDnsHostname_idem (h : normalizeDnsHostname value = .ok text) :
    normalizeDnsHostname text = .ok text := by
  obtain ⟨hText, hHost⟩ := normalizeDnsHostname_eq_ok.mp h
  refine normalizeDnsHostname_eq_ok.mpr ⟨?_, hHost⟩
  rw [hHost.stripDot_eq, hText]
  simp [toAsciiLowercase, asciiLower_asciiLower]

/-- A normalised hostname. -/
@[ext]
structure PublicHostname where
  text : Text
  canonical : normalizeDnsHostname text = .ok text
deriving DecidableEq

namespace PublicHostname

def new (value : Text) : Except PublicHostnameError PublicHostname :=
  match h : normalizeDnsHostname value with
  | .ok text => .ok ⟨text, normalizeDnsHostname_idem h⟩
  | .error error => .error error

instance : Ord PublicHostname := ⟨fun a b => compare a.text b.text⟩

instance : TransOrd PublicHostname where
  eq_swap {a b} := OrientedOrd.eq_swap (a := a.text) (b := b.text)
  isLE_trans {a b c} := TransOrd.isLE_trans (a := a.text) (b := b.text) (c := c.text)

instance : LawfulEqOrd PublicHostname where
  compare_self {a} := ReflOrd.compare_self (a := a.text)
  eq_of_compare {_ _} h := PublicHostname.ext (LawfulEqOrd.eq_of_compare h)

theorem new_eq_ok :
    new value = .ok hostname ↔ normalizeDnsHostname value = .ok hostname.text := by
  unfold new
  split
  · rename_i text hText
    constructor
    · intro h
      cases h
      exact hText
    · intro h
      obtain rfl : text = hostname.text := Except.ok.inj (hText.symm.trans h)
      rfl
  · rename_i hError
    exact ⟨nofun, fun h => (by rw [hError] at h; cases h)⟩

/-- A stored hostname is read back as itself. -/
@[simp]
theorem new_text (hostname : PublicHostname) : new hostname.text = .ok hostname :=
  new_eq_ok.mpr hostname.canonical

theorem isDnsHostname (hostname : PublicHostname) : IsDnsHostname hostname.text :=
  (normalizeDnsHostname_eq_ok.mp hostname.canonical).2

theorem toAsciiLowercase_text (hostname : PublicHostname) :
    toAsciiLowercase hostname.text = hostname.text := by
  have hText := (normalizeDnsHostname_eq_ok.mp hostname.canonical).1
  rw [hostname.isDnsHostname.stripDot_eq] at hText
  exact hText.symm

end PublicHostname

/-! ## The grammar of hostnames -/

/-- Letters, digits and inner hyphens, 1 to 63 of them. -/
structure IsLabel (label : Text) : Prop where
  nonempty : label ≠ []
  short : label.length ≤ maxDnsLabelBytes
  inner : label.head? ≠ some 45 ∧ label.getLast? ≠ some 45
  bytes : ∀ byte ∈ label, isAsciiAlphanumeric byte ∨ byte = 45

/-- Labels with dots between them, one or more, that are no address. -/
structure IsHostname (text : Text) : Prop where
  labels : ∃ labels : List Text, labels ≠ [] ∧ (∀ label ∈ labels, IsLabel label) ∧
    text = [46].intercalate labels
  short : text.length ≤ maxPublicHostnameBytes
  notAddress : isIpAddr text = false

theorem isDnsLabel_iff {label : Text} : isDnsLabel label ↔ IsLabel label := by
  simp only [isDnsLabel, Bool.and_eq_true, Bool.not_eq_true', isEmpty_eq_false_iff,
    decide_eq_true_eq, all_eq_true, Bool.or_eq_true]
  exact ⟨fun ⟨⟨⟨⟨hNe, hShort⟩, hHead⟩, hLast⟩, hBytes⟩ => ⟨hNe, hShort, ⟨hHead, hLast⟩, hBytes⟩,
    fun h => ⟨⟨⟨⟨h.nonempty, h.short⟩, h.inner.1⟩, h.inner.2⟩, h.bytes⟩⟩

theorem IsLabel.not_mem {label : Text} (h : IsLabel label) {byte : UInt8}
    (hByte : isAsciiAlphanumeric byte = false ∧ byte ≠ 45) : byte ∉ label := by
  intro hMem
  rcases h.bytes byte hMem with hAlphanumeric | hHyphen
  · rw [hByte.1] at hAlphanumeric
    cases hAlphanumeric
  · exact hByte.2 hHyphen

theorem not_mem_intercalate {byte : UInt8} {labels : List Text} (hDot : byte ≠ 46)
    (h : ∀ label ∈ labels, byte ∉ label) : byte ∉ [46].intercalate labels := by
  induction labels with
  | nil => simp
  | cons _ rest _ =>
    cases rest with
    | nil => simpa using h
    | cons _ _ => simp_all

/-- The checks accept exactly the texts of the grammar. -/
theorem isDnsHostname_iff : IsDnsHostname text ↔ IsHostname text := by
  constructor
  · intro h
    refine ⟨⟨text.splitOn 46, splitOn_ne_nil _ _, ?_, (intercalate_splitOn 46).symm⟩,
      h.short, h.notAddress⟩
    exact fun label hLabel => isDnsLabel_iff.mp (h.labels label hLabel)
  · rintro ⟨⟨labels, hNe, hLabels, rfl⟩, hShort, hNotAddress⟩
    have hSplit : ([46].intercalate labels).splitOn 46 = labels :=
      splitOn_intercalate 46 (fun label hLabel => (hLabels label hLabel).not_mem (by decide)) hNe
    refine ⟨?_, hNotAddress, ?_, hShort, ?_⟩
    · intro hEmpty
      rw [hEmpty] at hSplit
      obtain rfl : labels = [[]] := hSplit.symm
      exact (hLabels [] mem_cons_self).nonempty rfl
    · -- a port would be in a label, so that the check for it never fails alone
      exact not_mem_intercalate (by decide)
        fun label hLabel => (hLabels label hLabel).not_mem (by decide)
    · rw [hSplit]
      exact fun label hLabel => isDnsLabel_iff.mpr (hLabels label hLabel)

namespace PublicHostname

/-- Equal up to the case of letters and one trailing dot. -/
def SameName (value other : Text) : Prop :=
  toAsciiLowercase (stripDot value) = toAsciiLowercase (stripDot other)

theorem text_of_new (h : new value = .ok hostname) :
    hostname.text = toAsciiLowercase (stripDot value) :=
  (normalizeDnsHostname_eq_ok.mp (new_eq_ok.mp h)).1

/-- **Hostnames.** A value is accepted if and only if its normal form is in the grammar, and
becomes this normal form. A result is accepted as itself, and two accepted spellings are the
same hostname if and only if they differ in letter case and one trailing dot only. -/
theorem new_exact (value : Text) : ((∃ hostname, new value = .ok hostname) ↔
        IsHostname (toAsciiLowercase (stripDot value))) ∧
      (∀ hostname, new value = .ok hostname →
        hostname.text = toAsciiLowercase (stripDot value) ∧ new hostname.text = .ok hostname) ∧
      ∀ other hostname hostname', new value = .ok hostname → new other = .ok hostname' →
        (hostname = hostname' ↔ SameName value other) := by
  refine ⟨⟨?_, ?_⟩, ?_, ?_⟩
  · rintro ⟨hostname, hNew⟩
    rw [← text_of_new hNew]
    exact isDnsHostname_iff.mp hostname.isDnsHostname
  · intro h
    have hNormal := normalizeDnsHostname_eq_ok.mpr ⟨rfl, isDnsHostname_iff.mpr h⟩
    exact ⟨⟨_, normalizeDnsHostname_idem hNormal⟩, new_eq_ok.mpr hNormal⟩
  · exact fun hostname hNew => ⟨text_of_new hNew, hostname.new_text⟩
  · intro _ _ _ hNew hNew'
    rw [PublicHostname.ext_iff, text_of_new hNew, text_of_new hNew', SameName]

/-- `localhost` is accepted: one label without a dot is enough. -/
theorem new_single_label :
    (new [108, 111, 99, 97, 108, 104, 111, 115, 116]).map (·.text.splitOn 46) =
      .ok [[108, 111, 99, 97, 108, 104, 111, 115, 116]] := by
  decide +kernel

end PublicHostname

end TunnelProxy.Common
