import CellGraph.Configuration
import CellGraph.Json.Decoding

/-!
# Configurations in JSON

Every field of a configuration may be left out and then has its default.
-/

namespace CellGraph

open Json

/-- Reads a path. -/
def Path.decode : Decoder Path := fun value => (Decoder.path value).map Path.mk

/-- The names of the dialects. -/
def Dialect.names : List (String × Dialect) :=
  [("script", .script), ("plainJs", .plainModule), ("document", .document)]

/-- The name of a dialect. -/
def Dialect.name : Dialect → String
  | script => "script"
  | plainModule => "plainJs"
  | document => "document"

/-- Reads a dialect. -/
def Dialect.decode : Decoder Dialect := Decoder.variant Dialect.names

namespace Configuration

/-- How to read a configuration. -/
def record : Record Configuration :=
  let default : Configuration := {}
  let texts := Decoder.list Decoder.text
  Configuration.mk
    <$> .defaulted "attachmentFunction" Decoder.text default.attachmentFunction
    <*> .defaulted "scriptLanguage" Decoder.text default.scriptLanguage
    <*> .defaulted "scriptExtensions" texts default.scriptExtensions
    <*> .defaulted "moduleExtensions" texts default.moduleExtensions
    <*> .defaulted "documentExtensions" texts default.documentExtensions
    <*> .defaulted "recoverableExtension" Decoder.text default.recoverableExtension
    <*> .defaulted "typedExtension" Decoder.text default.typedExtension
    <*> .defaulted "projectRoot" (Decoder.optional Path.decode) default.projectRoot
    <*> .defaulted "projectMarkers" texts default.projectMarkers

/-- Reads a configuration. -/
def decode : Decoder Configuration := record.decode "ResolverConfig"

/-- The value of a configuration. -/
def encode (config : Configuration) : Value :=
  .ofMembers [
    ("attachmentFunction", .string config.attachmentFunction),
    ("scriptLanguage", .string config.scriptLanguage),
    ("scriptExtensions", .ofTexts config.scriptExtensions),
    ("moduleExtensions", .ofTexts config.moduleExtensions),
    ("documentExtensions", .ofTexts config.documentExtensions),
    ("recoverableExtension", .string config.recoverableExtension),
    ("typedExtension", .string config.typedExtension),
    ("projectRoot", .ofText? (config.projectRoot.map Path.text)),
    ("projectMarkers", .ofTexts config.projectMarkers)]

end Configuration

end CellGraph
