import MemberOrder.Terminal.Action.Argument
import MemberOrder.Terminal.Style

/-!
# Markup in messages

A tag in brackets opens a style and a tag with a slash closes one. `plainText` is a text without its
tags; it exists unless a closing tag has nothing to close or a tag makes no sense. A backslash in
front of a tag makes it plain, and two stand for one.
-/

namespace MemberOrder

namespace Terminal

/-- Why a marked text cannot be shown. -/
inductive MarkupFault
  /-- A closing tag has nothing to close, or closes an action with a parameter that makes no
  sense. -/
  | closing
  /-- A part of a colour is no number. -/
  | color (fault : Number.WholeFault)
deriving DecidableEq, Repr

/-- A tag: a name and, after an equals sign, a parameter. -/
structure StyleTag where
  name : String
  parameter : Option String
deriving DecidableEq, Repr

/-- A piece of a marked text. -/
inductive Piece
  | text (chars : List Char)
  | tag (tag : StyleTag)
deriving DecidableEq, Repr

/-- Whether a tag can begin with a character. -/
def beginsTag (c : Char) : Bool := ('a' ≤ c && c ≤ 'z') || c == '#' || c == '/' || c == '@'

/-- What is in the brackets of a tag, after the first bracket, with the text after the tag. -/
def tagBody? (rest : List Char) : Option (List Char × List Char) :=
  match rest with
  | [] => none
  | c :: _ =>
    if beginsTag c then
      let body := rest.takeWhile fun c => c != ']' && c != '['
      match rest.drop body.length with
      | ']' :: after => some (body, after)
      | _ => none
    else none

/-- The tag with some text in its brackets. -/
def StyleTag.ofBody (body : List Char) : StyleTag :=
  let name := body.takeWhile (· != '=')
  match body.drop name.length with
  | '=' :: parameter => ⟨String.ofList name, some (String.ofList parameter)⟩
  | _ => ⟨String.ofList name, none⟩

/-- The pieces of a marked text. `held` is the plain text before, backwards; `fuel` is no less than
the length of the text. -/
def piecesFrom (fuel : Nat) (held : List Char) (text : List Char) : List Piece :=
  match fuel with
  | 0 => [.text (held.reverse ++ text)]
  | fuel + 1 =>
    match text with
    | [] => [.text held.reverse]
    | c :: rest =>
      let slashes := text.takeWhile (· == '\\')
      match text.drop slashes.length with
      | '[' :: inside =>
        match tagBody? inside with
        | some (body, after) =>
          let halves := List.replicate (slashes.length / 2) '\\'
          .text held.reverse :: .text halves ::
            if slashes.length % 2 = 1 then
              .text ('[' :: body ++ [']']) :: piecesFrom fuel [] after
            else .tag (.ofBody body) :: piecesFrom fuel [] after
        | none => piecesFrom fuel (c :: held) rest
      | _ => piecesFrom fuel (c :: held) rest

/-- The pieces of a marked text. -/
def pieces (text : List Char) : List Piece := piecesFrom text.length [] text

/-- A plain piece with each escaped bracket as a bracket. -/
def unescapeBrackets : List Char → List Char
  | [] => []
  | '\\' :: '[' :: rest => '[' :: unescapeBrackets rest
  | c :: rest => c :: unescapeBrackets rest

/-- Whether a tag stands for something to do, and for no style. -/
def StyleTag.isAction (tag : StyleTag) : Bool := tag.name.startsWith "@"

/-- Whether a tag that is closed had a parameter that makes sense. -/
def StyleTag.isSound (tag : StyleTag) : Bool :=
  !tag.isAction || tag.parameter.all fun parameter => isParameter parameter.toList

/-- The name of a style in a tag as the one for all ways to write it. -/
def styleName (name : String) : Except MarkupFault String := (normalName name).mapError .color

/-- The open tags, innermost first, without the one that a name closes; that one is given too. -/
def closeTag (name : String) : List StyleTag → Option (StyleTag × List StyleTag)
  | [] => none
  | tag :: rest =>
    if tag.name = name then some (tag, rest)
    else (closeTag name rest).map fun (closed, others) => (closed, tag :: others)

/-- The open tags after a closing tag; one without a name closes the innermost. -/
def afterClosing (name : String) (opened : List StyleTag) :
    Except MarkupFault (List StyleTag) := do
  let closed ←
    if name.isEmpty then pure (opened.head?.map fun tag => (tag, opened.tail))
    else do pure (closeTag (← styleName name) opened)
  match closed with
  | some (tag, others) => if tag.isSound then return others else throw .closing
  | none => throw .closing

/-- The text of pieces, with `opened` tags before them. -/
def textOfPieces (opened : List StyleTag) : List Piece → Except MarkupFault (List Char)
  | [] => .ok []
  | .text chars :: rest => (textOfPieces opened rest).map (unescapeBrackets chars ++ ·)
  | .tag tag :: rest =>
    match tag.name.toList with
    | '/' :: name => do
      textOfPieces (← afterClosing (String.ofList (Text.trimChars name)) opened) rest
    | _ => do textOfPieces (⟨← styleName tag.name, tag.parameter⟩ :: opened) rest

/-- A marked text without its tags, if they fit together. -/
def plainText (text : List Char) : Except MarkupFault (List Char) := textOfPieces [] (pieces text)

/-- The styles of a marked text that are named in part by a parameter. -/
def parameterStyles (text : List Char) : List String :=
  (pieces text).filterMap fun piece =>
    match piece with
    | .tag tag =>
      if tag.isAction || tag.name.startsWith "/" then none
      else tag.parameter.map fun parameter =>
        match normalName tag.name with
        | .ok name => name ++ " " ++ parameter
        | .error _ => ""
    | .text _ => none

/-- Sees to it that the styles of a marked text that its tags do not name alone have numbers for the
parts of their colours. -/
def checkStyles (text : List Char) : Except MarkupFault Unit :=
  (parameterStyles text).forM fun name => do
    let _ ← (styleOf name).mapError .color

end Terminal

end MemberOrder
