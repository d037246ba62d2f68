import Nawa.Hashing.Argon2

/-!
# Password hashing of `nawa::crypto`

The engines behind the interface `HashingEngine`, the table that finds an engine for a hash, and
the functions that use both.
-/

namespace Nawa

namespace hashing

/-- The libraries that the engines call. -/
structure Libraries where
  cryptBlowfish : CryptBlowfish
  argon2 : Argon2

/-- What differs between two calls of the engines. -/
structure Surroundings where
  bcrypt : BcryptHashingEngine.Surroundings
  randomDevice : RandomDevice

/-- The implementations of `HashingEngine`. -/
inductive HashingEngine where
  | bcrypt (engine : BcryptHashingEngine)
  | argon2 (engine : Argon2HashingEngine)

namespace HashingEngine

def generateHash (lib : Libraries) (s : Surroundings) (input : Bytes) :
    HashingEngine → Except Exception Bytes
  | .bcrypt engine => engine.generateHash lib.cryptBlowfish s.bcrypt input
  | .argon2 engine => engine.generateHash lib.argon2 s.randomDevice input

def verifyHash (lib : Libraries) (s : Surroundings) (input hash : Bytes) : HashingEngine → Bool
  | .bcrypt _ => BcryptHashingEngine.verifyHash lib.cryptBlowfish s.bcrypt input hash
  | .argon2 _ => Argon2HashingEngine.verifyHash lib.argon2 s.randomDevice input hash

end HashingEngine

/-- `DefaultHashTypeTable::getEngine`. -/
def getEngine (hash : Bytes) : Option HashingEngine :=
  let hid := hash.take 4
  if hid = bytes "$2a$" ∨ hid = bytes "$2b$" ∨ hid = bytes "$2x$" ∨ hid = bytes "$2y$" then
    some (.bcrypt {})
  else if hash.take 10 = bytes "$argon2id$" ∨ hash.take 9 = bytes "$argon2i$" ∨
      hash.take 9 = bytes "$argon2d$" then
    some (.argon2 {})
  else none

end hashing

namespace crypto

open hashing

def passwordHash (lib : Libraries) (s : Surroundings) (password : Bytes)
    (hashingEngine : HashingEngine) : Except Exception Bytes :=
  hashingEngine.generateHash lib s password

def passwordVerify (lib : Libraries) (s : Surroundings) (password hash : Bytes)
    (hashTypeTable : Bytes → Option HashingEngine) : Except Exception Bool :=
  if hash = [] then .error ⟨1, bytes "Cannot verify an empty hash"⟩
  else
    match hashTypeTable hash with
    | none =>
      .error ⟨2, bytes "Could not determine a HashingEngine that is able to verify the given hash"⟩
    | some verifyer => .ok (verifyer.verifyHash lib s password hash)

end crypto

end Nawa
