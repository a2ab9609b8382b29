import MemberOrder.Number.Whole
import MemberOrder.Text.Lowercase

/-!
# Names of styles

A style is named by words: attributes, a colour, a background after `on` and a link. `normalName`
writes the words of a name in one fixed way, so that two names of one style become equal.
-/

namespace MemberOrder

namespace Terminal

/-- The names of the colours of the palette of 256 colours. -/
def paletteNames : List String :=
  ["black", "red", "green", "yellow", "blue", "magenta", "cyan", "white", "bright_black",
    "bright_red", "bright_green", "bright_yellow", "bright_blue", "bright_magenta", "bright_cyan",
    "bright_white", "grey0", "gray0", "navy_blue", "dark_blue", "blue3", "blue1", "dark_green",
    "deep_sky_blue4", "dodger_blue3", "dodger_blue2", "green4", "spring_green4", "turquoise4",
    "deep_sky_blue3", "dodger_blue1", "green3", "spring_green3", "dark_cyan", "light_sea_green",
    "deep_sky_blue2", "deep_sky_blue1", "spring_green2", "cyan3", "dark_turquoise", "turquoise2",
    "green1", "spring_green1", "medium_spring_green", "cyan2", "cyan1", "dark_red", "deep_pink4",
    "purple4", "purple3", "blue_violet", "orange4", "grey37", "gray37", "medium_purple4",
    "slate_blue3", "royal_blue1", "chartreuse4", "dark_sea_green4", "pale_turquoise4",
    "steel_blue", "steel_blue3", "cornflower_blue", "chartreuse3", "cadet_blue", "sky_blue3",
    "steel_blue1", "pale_green3", "sea_green3", "aquamarine3", "medium_turquoise", "chartreuse2",
    "sea_green2", "sea_green1", "aquamarine1", "dark_slate_gray2", "dark_magenta", "dark_violet",
    "purple", "light_pink4", "plum4", "medium_purple3", "slate_blue1", "yellow4", "wheat4",
    "grey53", "gray53", "light_slate_grey", "light_slate_gray", "medium_purple",
    "light_slate_blue", "dark_olive_green3", "dark_sea_green", "light_sky_blue3", "sky_blue2",
    "dark_sea_green3", "dark_slate_gray3", "sky_blue1", "chartreuse1", "light_green",
    "pale_green1", "dark_slate_gray1", "red3", "medium_violet_red", "magenta3", "dark_orange3",
    "indian_red", "hot_pink3", "medium_orchid3", "medium_orchid", "medium_purple2",
    "dark_goldenrod", "light_salmon3", "rosy_brown", "grey63", "gray63", "medium_purple1",
    "gold3", "dark_khaki", "navajo_white3", "grey69", "gray69", "light_steel_blue3",
    "light_steel_blue", "yellow3", "dark_sea_green2", "light_cyan3", "light_sky_blue1",
    "green_yellow", "dark_olive_green2", "dark_sea_green1", "pale_turquoise1", "deep_pink3",
    "magenta2", "hot_pink2", "orchid", "medium_orchid1", "orange3", "light_pink3", "pink3",
    "plum3", "violet", "light_goldenrod3", "tan", "misty_rose3", "thistle3", "plum2", "khaki3",
    "light_goldenrod2", "light_yellow3", "grey84", "gray84", "light_steel_blue1", "yellow2",
    "dark_olive_green1", "honeydew2", "light_cyan1", "red1", "deep_pink2", "deep_pink1",
    "magenta1", "orange_red1", "indian_red1", "hot_pink", "dark_orange", "salmon1", "light_coral",
    "pale_violet_red1", "orchid2", "orchid1", "orange1", "sandy_brown", "light_salmon1",
    "light_pink1", "pink1", "plum1", "gold1", "navajo_white1", "misty_rose1", "thistle1",
    "yellow1", "light_goldenrod1", "khaki1", "wheat1", "cornsilk1", "grey100", "gray100", "grey3",
    "gray3", "grey7", "gray7", "grey11", "gray11", "grey15", "gray15", "grey19", "gray19",
    "grey23", "gray23", "grey27", "gray27", "grey30", "gray30", "grey35", "gray35", "grey39",
    "gray39", "grey42", "gray42", "grey46", "gray46", "grey50", "gray50", "grey54", "gray54",
    "grey58", "gray58", "grey62", "gray62", "grey66", "gray66", "grey70", "gray70", "grey74",
    "gray74", "grey78", "gray78", "grey82", "gray82", "grey85", "gray85", "grey89", "gray89",
    "grey93", "gray93"]

/-- The attributes of a text in the order in which they are written, with their short names. -/
def attributeNames : List (String × List String) :=
  [("bold", ["b"]), ("dim", ["d"]), ("italic", ["i"]), ("underline", ["u"]), ("blink", []),
    ("blink2", []), ("reverse", ["r"]), ("conceal", ["c"]), ("strike", ["s"]),
    ("underline2", ["uu"]), ("frame", []), ("encircle", []), ("overline", ["o"])]

/-- The attribute that a word names. -/
def attribute? (word : String) : Option String :=
  (attributeNames.find? fun (name, short) => name = word ∨ word ∈ short).map Prod.fst

/-- What is between a beginning and a closing bracket, if a text has that shape. -/
def between? (opening : String) (text : String) : Option (List Char) :=
  let rest := text.toList.drop opening.length
  if text.startsWith opening && text.endsWith ")" then some rest.dropLast else none

/-- The number that one to three digits write, if it is one of an octet. -/
def isOctet (digits : List Char) : Bool :=
  !digits.isEmpty && digits.all Char.isDigit &&
    digits.foldl (fun n c => n * 10 + (c.toNat - 48)) 0 ≤ 255

/-- Whether the parts of a colour in numbers are three octets. What is no number is a fault, but
only where there are three parts. -/
def areOctets (inner : List Char) : Except Number.WholeFault Bool :=
  let parts := Text.piecesBetween ',' inner
  if parts.length = 3 then do
    let values ← parts.mapM fun part => Number.parseWhole 10 (String.ofList part)
    return values.all (· ≤ 255)
  else .ok false

/-- Whether a word in small letters names a colour. -/
def isColor (word : String) : Except Number.WholeFault Bool :=
  match between? "rgb(" word with
  | some inner =>
    if !inner.isEmpty && inner.all fun c => c == ',' || (Text.digitValue? c).isSome then
      areOctets inner
    else .ok false
  | none =>
    .ok <| word == "default" || word ∈ paletteNames ||
      (word.startsWith "#" && word.length == 7 && (word.toList.drop 1).all fun c =>
        c.isDigit || ('a' ≤ c && c ≤ 'f')) ||
      (between? "color(" word).any fun digits => digits.length ≤ 3 && isOctet digits

/-- A style in words. -/
structure Style where
  /-- Attributes that are on or off; the last entry for one counts. -/
  attributes : List (String × Bool)
  color : Option String
  background : Option String
  link : Option String
deriving DecidableEq, Repr

namespace Style

def plain : Style := ⟨[], none, none, none⟩

/-- The style with what some words say, if they are words of a style. -/
def takeWords (style : Style) : List String → Except Number.WholeFault (Option Style)
  | [] => .ok (some style)
  | word :: rest =>
    match Text.lowercase word, rest with
    | "on", name :: rest => do
      let color := Text.lowercase name
      if ← isColor color then takeWords { style with background := some color } rest
      else return none
    | "not", name :: rest =>
      match attribute? name with
      | some found =>
        takeWords { style with attributes := (found, false) :: style.attributes } rest
      | none => .ok none
    | "link", target :: rest => takeWords { style with link := some target } rest
    | "on", [] | "not", [] | "link", [] => .ok none
    | word, rest =>
      match attribute? word with
      | some found =>
        takeWords { style with attributes := (found, true) :: style.attributes } rest
      | none => do
        if ← isColor word then takeWords { style with color := some word } rest
        else return none

/-- The words of a style in their fixed order. -/
def words (style : Style) : List String :=
  (attributeNames.filterMap fun (name, _) =>
      (style.attributes.lookup name).map fun on => if on then name else "not " ++ name) ++
    style.color.toList ++ (style.background.toList.map fun color => "on " ++ color) ++
    (style.link.toList.map fun target => "link " ++ target)

/-- The name of a style. -/
def name (style : Style) : String :=
  if style.words.isEmpty then "none" else String.intercalate " " style.words

end Style

/-- The words of a text, between blanks. -/
def blankWords (text : List Char) : List (List Char) :=
  (text.splitBy fun c d => Text.isBlank c = Text.isBlank d).filter fun piece =>
    !piece.all Text.isBlank

/-- The style that a name names, if it names one. A part of a colour that is no number is a
fault. -/
def styleOf (name : String) : Except Number.WholeFault (Option Style) :=
  Style.plain.takeWords ((blankWords name.toList).map String.ofList)

/-- The one name for all ways to write the name of a style. What names no style is taken as it is,
without the blanks around it and in small letters. -/
def normalName (name : String) : Except Number.WholeFault String :=
  if Text.trim name = "none" then .ok "none"
  else do
    match ← styleOf name with
    | some style => return style.name
    | none => return Text.lowercase (Text.trim name)

end Terminal

end MemberOrder
