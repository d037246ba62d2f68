import Nawa.Config.Ini
import Nawa.Lib.AssocMap

/-!
# `nawa::Config`

The values of a configuration by section and key.
-/

namespace Nawa

structure Config where
  values : Lib.AssocMap (Bytes × Bytes) Bytes := .empty

namespace Config

def isSet (config : Config) (key : Bytes × Bytes) : Bool := (config.values.lookup key).isSome

/-- `operator[]`: a key that is not set reads as empty. -/
def get (config : Config) (section' key : Bytes) : Bytes :=
  (config.values.lookup (section', key)).getD []

def set (config : Config) (key : Bytes × Bytes) (value : Bytes) : Config :=
  { values := config.values.insert key value }

/-- `insert`, and what `read` does with the entries of a file: the first value of a key stays. -/
def insert (config : Config) (entries : List ((Bytes × Bytes) × Bytes)) : Config :=
  entries.foldl (fun config e => if config.isSet e.1 then config else config.set e.1 e.2) config

def couldNotRead : Exception := ⟨1, bytes "Could not read config file."⟩

/-- `read`, on the content of the file, where it can be opened. -/
def read (config : Config) (content : Option Bytes) : Except Exception Config :=
  match content with
  | none => .error couldNotRead
  | some content => .ok (config.insert (Ini.parse content))

/-- `override`: later overrides of one key win. -/
def override (config : Config) (overrides : List ((Bytes × Bytes) × Bytes)) : Config :=
  overrides.foldl (fun config e => config.set e.1 e.2) config

end Config

end Nawa
