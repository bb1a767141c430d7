/-
Bytes as hexadecimal text, and the text a hex editor keeps.

`hexToBytes` reads pairs of digits with any blanks between them and refuses everything else.
`normalizeHexEditorInput` never refuses: it keeps the digits of what was typed, writes them in
capital letters and in pairs, and puts the cursor behind as many digits as it was behind before.
-/
import ProtoScope.Library.Hex
import ProtoScope.Library.Lines

namespace ProtoScope.ProtocolUtils

open ProtoScope.Library

abbrev Text := List UInt8

/-- `' '` -/
def blank : UInt8 := 32

/-- The digit above nine that the tables begin with: `'A'` -/
def capitalA : UInt8 := 65

def bytesToHex (bytes : List UInt8) (withSpace : Bool := true) : Text :=
  match bytes with
  | [] => []
  | byte :: rest =>
    Hex.digit capitalA ((byte >>> 4) &&& 0x0F) :: Hex.digit capitalA (byte &&& 0x0F) ::
      ((if withSpace && !rest.isEmpty then [blank] else []) ++ bytesToHex rest withSpace)

/-- The value of a digit; where the source returns `-1` there is none. -/
def hexNibble (c : UInt8) : Option UInt8 := Hex.nibble c

def hexToBytes (text : Text) : Option (List UInt8) :=
  let compact := text.filter fun ch => !Lines.isSpace ch
  if compact.isEmpty then some []
  else if compact.length % 2 ≠ 0 then none
  else Hex.decode compact

structure HexEditorNormalization where
  text : Text := []
  cursorPos : ℕ := 0
  digitCount : ℕ := 0
deriving DecidableEq, Repr

/-- The loop over the text: how many digits are before the cursor, and all of them. -/
def compactDigits (cursorPos : ℕ) : ℕ → Text → ℕ × Text
  | _, [] => (0, [])
  | index, ch :: text =>
    let rest := compactDigits cursorPos (index + 1) text
    if Lines.isSpace ch then rest
    else
      match hexNibble ch with
      | none => rest
      | some nibble =>
        (rest.1 + if index < cursorPos then 1 else 0, Hex.digit capitalA nibble :: rest.2)

/-- The loop that writes the digits: a blank after every second one but the last. -/
def spacePairs : Text → Text
  | first :: second :: third :: rest =>
    first :: second :: blank :: spacePairs (third :: rest)
  | short => short

def normalizeHexEditorInput (text : Text) (cursorPos : ℕ) : HexEditorNormalization :=
  let (digitsBeforeCursor, compact) := compactDigits cursorPos 0 text
  if compact.isEmpty then {}
  else
    let clampedDigitsBeforeCursor := min digitsBeforeCursor compact.length
    { text := spacePairs compact
      cursorPos :=
        clampedDigitsBeforeCursor +
          if 0 < clampedDigitsBeforeCursor then (clampedDigitsBeforeCursor - 1) / 2 else 0
      digitCount := compact.length }

def normalizeHexText (text : Text) : Text := (normalizeHexEditorInput text text.length).text

end ProtoScope.ProtocolUtils
