import StackLang.Number.Numeral
import StackLang.Text.Utf8

/-!
# Raw texts

What comes from outside is a row of code points, and not all of them are characters: half of a
surrogate pair can stand there without the other half. JSON documents have escapes for such halves,
and arguments and variables hold them in the place of bytes that are not UTF-8.

A raw text without halves is a text. One with halves has no bytes of its own. It can be shown, with
the numbers of the halves written out, but it can be neither sent nor stored.

## Main definitions

* `Point`, `RawText`: code points and rows of them
* `RawText.ofString`, `RawText.text?`: a text as a raw text, and back
* `RawText.escaped`: a raw text as it is shown
* `RawText.encode`: the bytes of a raw text, or what stands in the way

## Main results

* `RawText.text?_eq_some_iff`: which raw texts are texts
* `RawText.escaped_ofString`, `RawText.encode_ofString`: texts are shown as they are and have bytes
-/

namespace StackLang

/-- A code point: a character, or half of a surrogate pair, counted from the first one. -/
inductive Point
  | char (c : Char)
  | half (index : Fin 2048)
  deriving DecidableEq, Repr

namespace Point

/-- The number of the first half of a pair. -/
def firstHalf : Nat := 0xD800

/-- The code point with a number. -/
def ofCode (n : Nat) : Point :=
  if h : firstHalf ≤ n ∧ n < firstHalf + 2048 then .half ⟨n - firstHalf, by omega⟩
  else .char (Char.ofNat n)

/-- The number of a code point. -/
def code : Point → Nat
  | .char c => c.toNat
  | .half index => firstHalf + index

/-- The character that a code point is, if it is one. -/
def char? : Point → Option Char
  | .char c => some c
  | .half _ => none

/-- Whether a code point is half of a pair. -/
def isHalf (p : Point) : Bool := p.char?.isNone

/-- A code point as it is shown: a character as it is, and half of a pair by its number. -/
def escaped : Point → List Char
  | .char c => [c]
  | .half index => '\\' :: 'u' :: (Number.hex 4 (firstHalf + index)).toList

end Point

/-- A row of code points. -/
@[ext] structure RawText where
  points : List Point
  deriving DecidableEq, Repr

/-- A row of halves in a raw text, and how many code points stand before it. -/
structure Flaw where
  before : Nat
  halves : RawText
  deriving DecidableEq, Repr

namespace RawText

instance : Append RawText := ⟨fun r s => ⟨r.points ++ s.points⟩⟩

instance : Inhabited RawText := ⟨⟨[]⟩⟩

/-- A text as a raw text. -/
def ofString (s : String) : RawText := ⟨s.toList.map .char⟩

instance : Coe String RawText := ⟨ofString⟩

/-- The text that a raw text is, if it is one. -/
def text? (r : RawText) : Option String := (r.points.mapM Point.char?).map String.ofList

/-- A raw text as it is shown. -/
def escaped (r : RawText) : String := String.ofList (r.points.flatMap Point.escaped)

/-- The first row of halves. -/
def flaw (r : RawText) : Flaw :=
  let before := (r.points.takeWhile fun p => !p.isHalf).length
  ⟨before, ⟨(r.points.drop before).takeWhile Point.isHalf⟩⟩

/-- The bytes of a raw text, or the first halves that have none. -/
def encode (r : RawText) : Except Flaw Bytes :=
  match r.text? with
  | some s => .ok (Text.encode s)
  | none => .error r.flaw

/-- Whether a raw text comes before another one, or is the same, by the numbers of the points. -/
def isBefore (r s : RawText) : Bool :=
  !List.lex (s.points.map Point.code) (r.points.map Point.code) Nat.blt

theorem points_ofString (s : String) : (ofString s).points = s.toList.map .char := rfl

theorem mapM_char?_map (cs : List Char) : (cs.map Point.char).mapM Point.char? = some cs := by
  induction cs with
  | nil => rfl
  | cons c cs ih => simp [Point.char?, ih]

theorem mapM_char?_eq_some {ps : List Point} {cs : List Char}
    (h : ps.mapM Point.char? = some cs) : ps = cs.map .char := by
  induction ps generalizing cs with
  | nil =>
    obtain rfl : [] = cs := by simpa using h
    rfl
  | cons p ps ih =>
    simp only [List.mapM_cons, Option.bind_eq_bind, Option.bind_eq_some_iff, Option.pure_def,
      Option.some.injEq] at h
    obtain ⟨c, hc, rest, hrest, rfl⟩ := h
    cases p with
    | half index => cases hc
    | char d =>
      obtain rfl : d = c := Option.some.inj hc
      rw [ih hrest, List.map_cons]

@[simp] theorem text?_ofString (s : String) : (ofString s).text? = some s := by
  rw [text?, points_ofString, mapM_char?_map, Option.map_some, String.ofList_toList]

/-- **A raw text is the text that it was made of.** -/
theorem text?_eq_some_iff {r : RawText} {s : String} : r.text? = some s ↔ r = ofString s := by
  refine ⟨fun h => ?_, fun h => h ▸ text?_ofString s⟩
  obtain ⟨cs, hcs, rfl⟩ := Option.map_eq_some_iff.mp h
  obtain ⟨points⟩ := r
  rw [ofString, String.toList_ofList, ← mapM_char?_eq_some hcs]

theorem ofString_injective {s t : String} (h : ofString s = ofString t) : s = t :=
  Option.some.inj ((text?_ofString s).symm.trans (text?_eq_some_iff.mpr h))

/-- **A text is shown as it is.** -/
@[simp] theorem escaped_ofString (s : String) : (ofString s).escaped = s := by
  have hpoints : ∀ cs : List Char, (cs.map Point.char).flatMap Point.escaped = cs := by
    intro cs
    induction cs with
    | nil => rfl
    | cons c cs ih =>
      rw [List.map_cons, List.flatMap_cons, ih]
      rfl
  rw [escaped, points_ofString, hpoints, String.ofList_toList]

/-- **A text has bytes.** -/
@[simp] theorem encode_ofString (s : String) : (ofString s).encode = .ok (Text.encode s) := by
  rw [encode, text?_ofString]

/-- A raw text that is put together is a text if its parts are. -/
theorem text?_append (r s : RawText) :
    (r ++ s).text? = r.text?.bind fun front => s.text?.map (front ++ ·) := by
  change ((r.points ++ s.points).mapM Point.char?).map String.ofList = _
  rw [List.mapM_append, text?, text?]
  cases r.points.mapM Point.char? with
  | none => rfl
  | some cs => cases s.points.mapM Point.char? <;> simp [String.ofList_append]

theorem escaped_append (r s : RawText) : (r ++ s).escaped = r.escaped ++ s.escaped := by
  change String.ofList ((r.points ++ s.points).flatMap Point.escaped) = _
  rw [List.flatMap_append, String.ofList_append]
  rfl

end RawText

/-- What is said about halves that have no bytes. -/
def Flaw.message (f : Flaw) : String :=
  "'utf-8' codec can't encode "
    ++ (if f.halves.points.length = 1 then
          "character '" ++ f.halves.escaped ++ "' in position " ++ Number.nat f.before
        else "characters in position " ++ Number.nat f.before ++ "-"
          ++ Number.nat (f.before + f.halves.points.length - 1))
    ++ ": surrogates not allowed"

end StackLang
