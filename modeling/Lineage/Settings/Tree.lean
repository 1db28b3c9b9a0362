import Lineage.ConfigTree
import Lineage.Settings.Basic

/-!
# Settings as trees

`toTree` writes settings as a tree, and `ofTree` reads a tree as settings. Reading takes the default
of a field that is missing and passes over keys that mean nothing.
-/

namespace Lineage

open ConfigTree

namespace Resolver

def toTree (r : Resolver) : ConfigTree :=
  .table
    [("root_type", .string r.rootType), ("root_aliases", .strings r.rootAliases),
      ("builtin_types", .strings r.builtinTypes),
      ("external_prefixes", .strings r.externalPrefixes),
      ("allow_unresolved", .boolean r.allowUnresolved)]

def fieldNames : List String :=
  ["root_type", "root_aliases", "builtin_types", "external_prefixes", "allow_unresolved"]

/-- Resolver settings with one field read. -/
def setField (r : Resolver) (name : String) (value : ConfigTree) : Except Misfit Resolver :=
  match name with
  | "root_type" => return { r with rootType := ← value.asText }
  | "root_aliases" => return { r with rootAliases := ← value.asTexts }
  | "builtin_types" => return { r with builtinTypes := ← value.asTexts }
  | "external_prefixes" => return { r with externalPrefixes := ← value.asTexts }
  | "allow_unresolved" => return { r with allowUnresolved := ← value.asBool }
  | _ => return r

def ofTree (t : ConfigTree) : Except Misfit Resolver :=
  t.visit fieldNames setField {}

end Resolver

namespace Logging

def toTree (l : Logging) : ConfigTree :=
  .table
    [("default", .string l.default),
      ("modules", .table (l.modules.entries.map fun (key, level) => (key, .string level)))]

def fieldNames : List String := ["default", "modules"]

def setField (l : Logging) (name : String) (value : ConfigTree) : Except Misfit Logging :=
  match name with
  | "default" => return { l with default := ← value.asText }
  | "modules" => return { l with modules := ← value.asDictionary }
  | _ => return l

def ofTree (t : ConfigTree) : Except Misfit Logging :=
  t.visit fieldNames setField {}

end Logging

/-- The format that a tree names. A table stands for its first word with something attached to it,
which no format takes. -/
def OutputFormat.ofTree : ConfigTree → Except Misfit OutputFormat
  | .string word =>
    match ofKey? word with
    | some format => .ok format
    | none => .error ⟨.unknownWord, []⟩
  | .table entries =>
    match (Dictionary.ofList entries).entries with
    | [] => .error ⟨.mistyped, []⟩
    | (word, _) :: _ =>
      .error ⟨if (ofKey? word).isSome then .mistyped else .unknownWord, [word]⟩
  | _ => .error ⟨.mistyped, []⟩

namespace Output

def toTree (o : Output) : ConfigTree :=
  .table [("format", .string o.format.key), ("show_clean_types", .boolean o.showCleanTypes)]

def fieldNames : List String := ["format", "show_clean_types"]

def setField (o : Output) (name : String) (value : ConfigTree) : Except Misfit Output :=
  match name with
  | "format" => return { o with format := ← OutputFormat.ofTree value }
  | "show_clean_types" => return { o with showCleanTypes := ← value.asBool }
  | _ => return o

def ofTree (t : ConfigTree) : Except Misfit Output :=
  t.visit fieldNames setField {}

end Output

namespace Settings

def toTree (s : Settings) : ConfigTree :=
  .table
    [("version", .integer s.version.toNat), ("debug", .boolean s.debug),
      ("resolver", s.resolver.toTree), ("logging", s.logging.toTree),
      ("output", s.output.toTree)]

def fieldNames : List String := ["version", "debug", "resolver", "logging", "output"]

def setField (s : Settings) (name : String) (value : ConfigTree) : Except Misfit Settings :=
  match name with
  | "version" => return { s with version := ← value.asWord32 }
  | "debug" => return { s with debug := ← value.asBool }
  | "resolver" => return { s with resolver := ← Resolver.ofTree value }
  | "logging" => return { s with logging := ← Logging.ofTree value }
  | "output" => return { s with output := ← Output.ofTree value }
  | _ => return s

def ofTree (t : ConfigTree) : Except Misfit Settings :=
  t.visit fieldNames setField {}

/-- The settings that layers of trees give, each laid over the ones before it and all over the
defaults. -/
def ofLayers (layers : List ConfigTree) : Except Misfit Settings :=
  ofTree (layers.foldl ConfigTree.merge ({} : Settings).toTree)

end Settings

end Lineage
