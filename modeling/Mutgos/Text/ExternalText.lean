import Mutgos.DbTypes.Id
import Mutgos.Text.StringParsing

/-!
# External text

`text::ExternalText` and its subclasses: a line of text for a client is a list of
plain texts, texts with a style, URLs and IDs.

## Main results

* `stringToColor_colorToString` and its likes — a string is read back, but for the
  one that stands for an invalid value.
-/

namespace Mutgos.Text

open DbTypes

inductive Color
  | default | custom | black | red | yellow | green | cyan | blue | magenta | white
  /-- Internal use only. -/
  | endInvalid
  deriving DecidableEq

inductive UrlType
  | page | image | audio
  /-- Internal use only. -/
  | endInvalid
  deriving DecidableEq

inductive IdType
  | entity | action | exit
  /-- Internal use only. -/
  | endInvalid
  deriving DecidableEq

/-- The style of an `ExternalFormattedText`. -/
structure TextStyle where
  bold : Bool
  italic : Bool
  underline : Bool
  inverse : Bool
  color : Color
  red : UInt8
  green : UInt8
  blue : UInt8
  deriving DecidableEq

/-- `text::ExternalText`, by its subclass. -/
inductive ExternalText
  | plainText (text : ByteString)
  | formattedText (text : ByteString) (style : TextStyle)
  | url (urlType : UrlType) (urlText urlName : ByteString)
  | id (dbId : Id) (dbIdName : ByteString) (dbIdType : IdType)
  deriving DecidableEq

/-- `text::ExternalTextLine` -/
abbrev ExternalTextLine := List ExternalText

/-! ### Enumerations as strings -/

/-- `COLOR_AS_STRING` -/
def colorToString : Color → ByteString
  | .default => ascii "default"
  | .custom => ascii "custom"
  | .black => ascii "black"
  | .red => ascii "red"
  | .yellow => ascii "yellow"
  | .green => ascii "green"
  | .cyan => ascii "cyan"
  | .blue => ascii "blue"
  | .magenta => ascii "magenta"
  | .white => ascii "white"
  | .endInvalid => ascii "INVALID"

/-- `URL_TYPE_AS_STRING` -/
def urlTypeToString : UrlType → ByteString
  | .page => ascii "page"
  | .image => ascii "image"
  | .audio => ascii "audio"
  | .endInvalid => ascii "INVALID"

/-- `ID_TYPE_AS_STRING` -/
def idTypeToString : IdType → ByteString
  | .entity => ascii "entity"
  | .action => ascii "action"
  | .exit => ascii "exit"
  | .endInvalid => ascii "INVALID"

/-- The loop of the functions that read an enumeration: the first of the values with
that string. -/
def stringToEnum {α : Type} (values : List α) (toString : α → ByteString) (invalid : α)
    (s : ByteString) : α :=
  (values.find? fun a => toString a = s).getD invalid

def stringToColor : ByteString → Color :=
  stringToEnum [.default, .custom, .black, .red, .yellow, .green, .cyan, .blue, .magenta, .white]
    colorToString .endInvalid

def stringToUrlType : ByteString → UrlType :=
  stringToEnum [.page, .image, .audio] urlTypeToString .endInvalid

def stringToIdType : ByteString → IdType :=
  stringToEnum [.entity, .action, .exit] idTypeToString .endInvalid

@[simp] theorem stringToColor_colorToString (color : Color) :
    stringToColor (colorToString color) = color := by
  cases color <;> decide

@[simp] theorem stringToIdType_idTypeToString (idType : IdType) :
    stringToIdType (idTypeToString idType) = idType := by
  cases idType <;> decide

end Mutgos.Text
