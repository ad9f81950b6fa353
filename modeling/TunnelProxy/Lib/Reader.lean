import TunnelProxy.Lib.BigEndian
import TunnelProxy.Lib.Table

/-!
# Reading bytes

A reader takes a value from the front of the bytes that are left, or fails.
`Undoes read write a` says that it takes back the value `a` as it was written, whatever
follows; a round trip is shown one field at a time.

* `takeBytes_append`, `number_be` — the rules for bytes and numbers
* `Undoes.many` — the rule for a list of values with its length given
* `isUtf8_of_ascii` — text of ASCII bytes is valid
-/

namespace Reader

open BigEndian List

variable {ε α : Type} {n : Nat} {truncated : ε} {input : List UInt8}

/-- The next `n` bytes. -/
def takeBytes (truncated : ε) (n : Nat) (input : List UInt8) : Except ε (List UInt8 × List UInt8) :=
  if input.length < n then .error truncated else .ok (input.take n, input.drop n)

/-- A big-endian number of `k` bytes. -/
def number (truncated : ε) (k : Nat) (input : List UInt8) : Except ε (Nat × List UInt8) := do
  let (bytes, rest) ← takeBytes truncated k input
  return (readBE bytes, rest)

/-- `n` values, one after the other. -/
def many (read : List UInt8 → Except ε (α × List UInt8)) :
    Nat → List UInt8 → Except ε (List α × List UInt8)
  | 0, input => .ok ([], input)
  | n + 1, input => do
    let (value, rest) ← read input
    let (values, rest) ← many read n rest
    return (value :: values, rest)

/-- What was written for `a` is read back, and nothing after it. -/
def Undoes (read : List UInt8 → Except ε (α × List UInt8)) (write : α → List UInt8) (a : α) :
    Prop :=
  ∀ rest, read (write a ++ rest) = .ok (a, rest)

theorem takeBytes_append {bytes : List UInt8} (h : bytes.length = n) (rest : List UInt8) :
    takeBytes truncated n (bytes ++ rest) = .ok (bytes, rest) := by
  have hLength : ¬(bytes ++ rest).length < n := by
    rw [length_append]
    omega
  rw [takeBytes, if_neg hLength, take_left' h, drop_left' h]

theorem takeBytes_eq_error {error : ε} (h : takeBytes truncated n input = .error error) :
    error = truncated := by
  unfold takeBytes at h
  split_ifs at h
  exact (Except.error.inj h).symm

theorem number_eq_error {error : ε} {k : Nat} (h : number truncated k input = .error error) :
    error = truncated := by
  rcases bind_eq_error.mp h with hTake | ⟨_, -, hDone⟩
  · exact takeBytes_eq_error hTake
  · cases hDone

theorem number_be {k : Nat} (h : n < 256 ^ k) (rest : List UInt8) :
    number truncated k (be k n ++ rest) = .ok (n, rest) := by
  rw [number, takeBytes_append (length_be k n), ok_bind]
  show Except.ok (readBE (be k n), rest) = _
  rw [readBE_be h]

theorem Undoes.many {read : List UInt8 → Except ε (α × List UInt8)} {write : α → List UInt8}
    {values : List α} (h : ∀ a ∈ values, Undoes read write a) (rest : List UInt8) :
    Reader.many read values.length (values.flatMap write ++ rest) = .ok (values, rest) := by
  induction values with
  | nil => rfl
  | cons a _ ih =>
    have hRest := ih fun b hb => h b (mem_cons_of_mem a hb)
    rw [length_cons, Reader.many, flatMap_cons, append_assoc,
      h a mem_cons_self, ok_bind]
    simp only [hRest, ok_bind]
    rfl

/-! ## Text -/

def isContinuation (byte : UInt8) : Bool := 0x80 ≤ byte && byte ≤ 0xBF

/-- Well-formed UTF-8: no overlong forms, no surrogates, nothing above U+10FFFF. -/
def isUtf8 : List UInt8 → Bool
  | [] => true
  | a :: rest =>
    if a < 0x80 then isUtf8 rest
    else match rest with
      | b :: rest =>
        if 0xC2 ≤ a && a ≤ 0xDF then isContinuation b && isUtf8 rest
        else match rest with
          | c :: rest =>
            if 0xE0 ≤ a && a ≤ 0xEF then
              (if a = 0xE0 then 0xA0 ≤ b && b ≤ 0xBF
                else if a = 0xED then 0x80 ≤ b && b ≤ 0x9F
                else isContinuation b) && isContinuation c && isUtf8 rest
            else match rest with
              | d :: rest =>
                0xF0 ≤ a && a ≤ 0xF4 &&
                  (if a = 0xF0 then 0x90 ≤ b && b ≤ 0xBF
                    else if a = 0xF4 then 0x80 ≤ b && b ≤ 0x8F
                    else isContinuation b) && isContinuation c && isContinuation d && isUtf8 rest
              | [] => false
          | [] => false
      | [] => false

theorem isUtf8_of_ascii {text : List UInt8} (h : ∀ byte ∈ text, byte < 0x80) :
    isUtf8 text = true := by
  induction text with
  | nil => rfl
  | cons a _ ih =>
    unfold isUtf8
    rw [if_pos (h a mem_cons_self)]
    exact ih fun byte hByte => h byte (mem_cons_of_mem a hByte)

theorem isUtf8_append {a b : List UInt8} (hA : isUtf8 a) (hB : isUtf8 b) : isUtf8 (a ++ b) := by
  fun_induction isUtf8 a with
  | case1 => exact hB
  | case2 | case3 | case4 | case5 =>
    simp only [cons_append]
    unfold isUtf8
    simp_all
  | _ => cases hA

end Reader
