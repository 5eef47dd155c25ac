import Uplift.Config.Defaults
import Uplift.File
import Uplift.Format

/-!
# Layers of configuration

A configuration is read from a file of defaults, or taken from the packaged ones, with a local file
on top if there is one. An empty file counts as an empty object.
-/

set_option autoImplicit false

namespace Uplift.Config

/-- Why there is no configuration. -/
inductive LayerError where
  | missingFile (name : String)
  | unsupportedFormat (suffix : String)
  | unreadable (error : FileError)
  | unparsable (error : FormatError)
  | notMapping (fileName typeName : String)
  | conflict (found : MergeConflict)

namespace LayerError

def message : LayerError → String
  | missingFile name => "Arquivo de configuração não encontrado: " ++ name
  | unsupportedFormat suffix => "Formato não suportado: " ++ suffix
  | unreadable _ => "configuration file cannot be read"
  | unparsable _ => "failed to parse configuration"
  | notMapping fileName typeName =>
      "A raiz de " ++ fileName ++ " deve ser um mapa, recebido: " ++ typeName
  | conflict found => found.message

end LayerError

/-- Reads the file of a layer, which are numbered from below. Its root must be an object. -/
def readLayer (layer : Nat) (file : File) : Except LayerError Value :=
  if !file.isRegular then .error (.missingFile file.name)
  else
    match Format.ofSuffix? file.suffix with
    | none => .error (.unsupportedFormat file.suffix)
    | some format => do
        let text ← file.text.mapError LayerError.unreadable
        let graph ← (format.read layer text).mapError LayerError.unparsable
        match graph.tree with
        | .object entries => return .object entries
        | .null => return .object []
        | other => throw (.notMapping file.name other.typeName)

/-- Reads the defaults, or takes the packaged ones, and puts the local file on top if it exists. -/
def load (defaultsFile localFile : Option File) : Except LayerError Value := do
  let base ←
    match defaultsFile with
    | none => .ok defaults
    | some file => readLayer 0 file
  match localFile with
  | none => return base
  | some file =>
      if file.isMissing then return base
      else
        let overrides ← readLayer 1 file
        (merge base overrides).mapError LayerError.conflict

end Uplift.Config
