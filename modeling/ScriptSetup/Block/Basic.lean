import ScriptSetup.Text.Lines
import ScriptSetup.Text.Span

/-!
# Blocks of a component file

A component file is a list of blocks: markup, logic, style and others, each with attributes and
a content that is kept as it is written. `Block.render` writes a block again; it differs from
the source at most in how the tag is written.
-/

set_option autoImplicit false

namespace ScriptSetup

namespace Block

/-- What a block holds. -/
inductive Kind where
  | template | script | style
  /-- any other tag -/
  | custom
  deriving DecidableEq, Repr, Inhabited

/-- The kind of the block with this tag. -/
def Kind.ofTag : String → Kind
  | "template" => template
  | "script" => script
  | "style" => style
  | _ => custom

/-- The value of an attribute. -/
inductive AttributeValue where
  /-- the name alone -/
  | bare
  /-- a text, without its quotes -/
  | text (value : String)
  deriving DecidableEq, Repr, Inhabited

/-- An attribute of an opening tag. -/
structure Attribute where
  name : String
  value : AttributeValue
  span : Span
  deriving DecidableEq, Repr, Inhabited

/-- The attribute with a space before it. A value that holds a double quote is written in single
quotes. -/
def Attribute.render (a : Attribute) : String :=
  match a.value with
  | .bare => " " ++ a.name
  | .text value =>
    if Text.hasChar '"' value then " " ++ a.name ++ "='" ++ value ++ "'"
    else " " ++ a.name ++ "=\"" ++ value ++ "\""

/-- Attributes as they stand after a tag name. -/
def renderAttributes (attributes : List Attribute) : String :=
  Text.join "" (attributes.map Attribute.render)

end Block

/-- A block of a component file. -/
structure Block where
  /-- the tag as written -/
  name : String
  /-- from the opening to the end of the closing tag -/
  span : Span
  /-- what stands between the tags -/
  contentSpan : Span
  content : String
  attributes : List Block.Attribute
  deriving DecidableEq, Repr, Inhabited

namespace Block

/-- What the block holds. -/
def kind (b : Block) : Kind := Kind.ofTag b.name

/-- The first attribute with this name. -/
def attribute? (b : Block) (name : String) : Option Attribute :=
  b.attributes.find? (·.name == name)

/-- There is an attribute with this name. -/
def hasAttribute (b : Block) (name : String) : Bool :=
  (b.attribute? name).isSome

/-- The text of the `lang` attribute. -/
def lang? (b : Block) : Option String :=
  match b.attribute? "lang" with
  | some ⟨_, .text value, _⟩ => some value
  | _ => none

/-- A block from its parts. -/
def renderParts (name attributes content : String) : String :=
  "<" ++ name ++ attributes ++ ">" ++ content ++ "</" ++ name ++ ">"

/-- The block with its content as it is. -/
def render (b : Block) : String :=
  renderParts b.name (renderAttributes b.attributes) b.content

/-- The first block of a kind. -/
def ofKind? (blocks : List Block) (kind : Kind) : Option Block :=
  blocks.find? (·.kind == kind)

/-- All blocks of a kind. -/
def ofKind (blocks : List Block) (kind : Kind) : List Block :=
  blocks.filter (·.kind == kind)

end Block

end ScriptSetup
