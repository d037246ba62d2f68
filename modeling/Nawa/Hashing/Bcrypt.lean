import Nawa.Util.Utils

/-!
# `nawa::hashing::BcryptHashingEngine`

The engine, and the functions of `libs/libbcrypt` that it calls. What these take from
`crypt_blowfish` is a parameter. A local array of the source is uninitialised where nothing has been
written to it, and what is read there is what the stack happens to hold.
-/

namespace Nawa.hashing

/-- What a C function sees of a string that it gets by `c_str`. -/
def cString (s : Bytes) : Bytes := s.takeWhile (· ≠ 0)

def BCRYPT_HASHSIZE : Nat := 64

/-- An array of `BCRYPT_HASHSIZE` characters, with `none` for those that are uninitialised. -/
abbrev Buffer := List (Option UInt8)

namespace Buffer

def uninitialised : Buffer := List.replicate BCRYPT_HASHSIZE none

/-- Characters are copied to the beginning. -/
def write (buffer : Buffer) (s : Bytes) : Buffer := s.map some ++ buffer.drop s.length

/-- All characters, with those of the stack that have not been written. -/
def read (buffer : Buffer) (stack : Nat → UInt8) : Bytes :=
  buffer.mapIdx fun i c => c.getD (stack i)

end Buffer

/-! ## `libbcrypt` -/

/-- The functions of `crypt_blowfish`: a setting from a prefix, a work factor and random bytes, and
the hash of a password with a setting. Both fail on what they do not know. -/
structure CryptBlowfish where
  crypt_gensalt_rn : Bytes → Nat → Bytes → Option Bytes
  crypt_rn : Bytes → Bytes → Option Bytes

/-- Nonzero for strings that differ; all characters are compared. -/
def timing_safe_strcmp (str1 str2 : Bytes) : Int :=
  if str1.length ≠ str2.length then 1
  else ((List.zipWith (· ^^^ ·) str1 str2).foldl (· ||| ·) 0).toNat

/-- What can go wrong with `/dev/urandom`. -/
inductive UrandomFailure where
  | cannotOpen
  | cannotRead
  | cannotClose
  | cannotReadOrClose

/-- The code that is returned, and the salt in its buffer. `urandom` has the bytes that are read
from the device. -/
def bcrypt_gensalt (lib : CryptBlowfish) (urandom : Except UrandomFailure Bytes) (factor : Int)
    (salt : Buffer) : Nat × Buffer :=
  match urandom with
  | .error .cannotOpen => (1, salt)
  | .error .cannotRead => (2, salt)
  | .error .cannotClose => (3, salt)
  | .error .cannotReadOrClose => (4, salt)
  | .ok input =>
    let workf := if factor < 4 ∨ 31 < factor then 12 else factor.toNat
    match lib.crypt_gensalt_rn (bytes "$2a$") workf input with
    | none => (5, salt)
    | some output => (0, salt.write (output ++ [0]))

def bcrypt_hashpw (lib : CryptBlowfish) (passwd salt : Bytes) (hash : Buffer) : Nat × Buffer :=
  match lib.crypt_rn passwd salt with
  | none => (1, hash)
  | some output => (0, hash.write (output ++ [0]))

def bcrypt_checkpw (lib : CryptBlowfish) (stack : Nat → UInt8) (passwd hash : Bytes) : Int :=
  let (ret, outhash) := bcrypt_hashpw lib passwd hash Buffer.uninitialised
  if ret ≠ 0 then -1 else timing_safe_strcmp hash (cString (outhash.read stack))

/-! ## The engine -/

structure BcryptHashingEngine where
  workFactor : Int := 10
  salt : Bytes := []

namespace BcryptHashingEngine

/-- What differs between two calls: random bytes, and what the stack holds in the places of the
two arrays. -/
structure Surroundings where
  urandom : Except UrandomFailure Bytes
  bcsalt : Nat → UInt8
  hash : Nat → UInt8

/-- The arrays `bcsalt` and `hash` in front of the call of `bcrypt_hashpw`. -/
def prepare (lib : CryptBlowfish) (engine : BcryptHashingEngine)
    (urandom : Except UrandomFailure Bytes) : Except Exception (Buffer × Buffer) :=
  let bcsalt := Buffer.uninitialised
  let hash := Buffer.uninitialised
  if engine.salt ≠ [] then
    -- `resize` cuts the salt, or fills it up with zeros
    let salt_res := (engine.salt ++ List.replicate BCRYPT_HASHSIZE 0).take BCRYPT_HASHSIZE
    .ok (bcsalt, hash.write salt_res)
  else
    let (ret, bcsalt) := bcrypt_gensalt lib urandom engine.workFactor bcsalt
    if ret ≠ 0 then
      .error ⟨10, bytes "Could not generate a salt (unknown bcrypt failure)."⟩
    else .ok (bcsalt, hash)

def generateHash (lib : CryptBlowfish) (engine : BcryptHashingEngine) (s : Surroundings)
    (input : Bytes) : Except Exception Bytes :=
  (engine.prepare lib s.urandom).bind fun (bcsalt, hash) =>
    let (ret, hash) := bcrypt_hashpw lib (cString input) (cString (bcsalt.read s.bcsalt)) hash
    if ret ≠ 0 then
      .error ⟨11, bytes "Could not hash this password (unknown bcrypt failure)."⟩
    else .ok ((hash.read s.hash).take 60)

def verifyHash (lib : CryptBlowfish) (s : Surroundings) (input hash : Bytes) : Bool :=
  bcrypt_checkpw lib s.hash (cString input) (cString hash) = 0

end BcryptHashingEngine

end Nawa.hashing
