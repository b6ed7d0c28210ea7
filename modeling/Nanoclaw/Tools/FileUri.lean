import Nanoclaw.Lib.Text

/-!
# File URIs

A language server is told of a file by its URI. `file_uri_from_path` escapes every byte of the
path but ASCII letters, digits and `-_.~/`; `file_uri_to_path` reads the escapes back.

* `file_uri_round_trip` — every path comes back from its URI, which after `file://` consists of
  unreserved characters, slashes and complete escapes.
-/

open List

namespace Nanoclaw.Lsp

def hexDigit (n : ℕ) : Char :=
  Char.ofNat (if n < 10 then 48 + n else 55 + n)

/-- What is pushed for a byte of the path. -/
def encodeByte (byte : UInt8) : List Char :=
  let ch := Char.ofNat byte.toNat
  if ch.isAlphanum ∨ ch ∈ ['/', '-', '_', '.', '~'] then [ch]
  else ['%', hexDigit (byte.toNat / 16), hexDigit (byte.toNat % 16)]

def fileUriFromPath (path : String) : String :=
  "file://" ++ String.ofList (path.toByteArray.data.toList.flatMap encodeByte)

def hexValue (byte : UInt8) : Option ℕ :=
  if 48 ≤ byte ∧ byte ≤ 57 then some (byte.toNat - 48)
  else if 65 ≤ byte ∧ byte ≤ 70 then some (byte.toNat - 55)
  else if 97 ≤ byte ∧ byte ≤ 102 then some (byte.toNat - 87)
  else none

/-- `u8::from_str_radix` on two bytes, the first of which may be a plus sign. -/
def fromStrRadix (a b : UInt8) : Option UInt8 := do
  let low ← hexValue b
  if a = 43 then return .ofNat low
  return .ofNat (16 * (← hexValue a) + low)

/-- The loop over the bytes: a percent sign with two bytes after it is an escape. -/
def decode : List UInt8 → Option (List UInt8)
  | byte :: a :: b :: rest =>
    if byte = 37 then do return (← fromStrRadix a b) :: (← decode rest)
    else do return byte :: (← decode (a :: b :: rest))
  | byte :: rest => do return byte :: (← decode rest)
  | [] => some []

def fileUriToPath (uri : String) : Option String := do
  let raw ← Text.stripStart uri "file://"
  String.fromUTF8? ⟨(← decode raw.toByteArray.data.toList).toArray⟩

/-- The text of an URI: unreserved characters, slashes and complete escapes. -/
def onlyEscapes : List Char → Bool
  | ch :: a :: b :: rest =>
    if ch = '%' then isHex a && isHex b && onlyEscapes rest
    else plain ch && onlyEscapes (a :: b :: rest)
  | ch :: rest => plain ch && onlyEscapes rest
  | [] => true
where
  isHex (ch : Char) : Bool := ch.isDigit || ('A' ≤ ch && ch ≤ 'F')
  plain (ch : Char) : Bool := ch.isAlphanum || ['-', '.', '_', '~', '/'].contains ch

/-- A byte stands for itself, or for it stand a percent sign and two digits that give it back. -/
theorem encodeByte_cases : ∀ byte : UInt8, let ch := Char.ofNat byte.toNat
    let high := hexDigit (byte.toNat / 16)
    let low := hexDigit (byte.toNat % 16)
    (encodeByte byte = [ch] ∧ String.utf8EncodeChar ch = [byte] ∧ byte ≠ 37 ∧ ch ≠ '%' ∧
      onlyEscapes.plain ch = true) ∨
    (encodeByte byte = ['%', high, low] ∧ String.utf8EncodeChar high = [.ofNat high.toNat] ∧
      String.utf8EncodeChar low = [.ofNat low.toNat] ∧
      fromStrRadix (.ofNat high.toNat) (.ofNat low.toNat) = some byte ∧
      onlyEscapes.isHex high = true ∧ onlyEscapes.isHex low = true) := by
  rintro ⟨⟨n⟩⟩
  revert n
  decide +kernel

theorem decode_encode (bytes : List UInt8) :
    decode ((bytes.flatMap encodeByte).flatMap String.utf8EncodeChar) = some bytes := by
  induction bytes with
  | nil => rfl
  | cons byte bytes ih =>
    rw [flatMap_cons, flatMap_append]
    rcases encodeByte_cases byte with ⟨hbyte, hch, hne, -⟩ | ⟨hbyte, hhigh, hlow, hradix, -⟩
    · rw [hbyte, flatMap_singleton, hch]
      have hcons : ∀ rest, decode (byte :: rest) = do return byte :: (← decode rest) := by
        rintro (_ | ⟨a, _ | ⟨b, rest⟩⟩)
        · rfl
        · rfl
        · rw [decode, if_neg hne]
      rw [singleton_append, hcons, ih]
      rfl
    · have hpercent : String.utf8EncodeChar '%' = [37] := rfl
      simp [hbyte, hhigh, hlow, hpercent, decode, hradix, ih]

theorem onlyEscapes_encode (bytes : List UInt8) :
    onlyEscapes (bytes.flatMap encodeByte) = true := by
  induction bytes with
  | nil => rfl
  | cons byte bytes ih =>
    rw [flatMap_cons]
    rcases encodeByte_cases byte with ⟨hbyte, -, -, hne, hplain⟩ | ⟨hbyte, -, -, -, hhigh, hlow⟩
    · rw [hbyte]
      generalize bytes.flatMap encodeByte = rest at ih
      rcases rest with _ | ⟨a, _ | ⟨b, rest⟩⟩ <;> simp_all [onlyEscapes]
    · simp [hbyte, onlyEscapes, hhigh, hlow, ih]

/-- **Every path comes back from its URI.** -/
theorem file_uri_round_trip (path : String) : fileUriToPath (fileUriFromPath path) = some path ∧
      ∃ text, fileUriFromPath path = "file://" ++ text ∧ onlyEscapes text.toList = true := by
  refine ⟨?_, _, rfl, ?_⟩
  · rw [fileUriToPath, fileUriFromPath, Text.stripStart_append]
    simp only [Option.bind_eq_bind, Option.bind_some, String.toByteArray_ofList, List.utf8Encode,
      toList_data_toByteArray, decode_encode]
    exact dif_pos path.isValidUTF8
  · rw [String.toList_ofList]
    exact onlyEscapes_encode _

/-- The colon of the scheme is none of these. -/
theorem file_scheme_has_colon : onlyEscapes (fileUriFromPath "/").toList = false := by
  decide

end Nanoclaw.Lsp
