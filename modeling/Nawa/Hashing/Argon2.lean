import Nawa.Hashing.Bcrypt
import Nawa.Util.Encoding

/-!
# `nawa::hashing::Argon2HashingEngine`

The engine. The encoding functions of the Argon2 library are a parameter, and so is the device that
random salts come from.
-/

namespace Nawa.hashing

open Lib (Regex)
open Lib.Regex (lit plus opt)

inductive Algorithm where
  | argon2i
  | argon2d
  | argon2id
  deriving DecidableEq

/-- `argon2i_hash_encoded` and its siblings: from the time cost, the memory cost, the parallelism,
the password, the salt, the length of the hash and the size of the buffer to the encoded hash or an
error code, and the texts of these codes. -/
structure Argon2 where
  hash_encoded : Algorithm → UInt32 → UInt32 → UInt32 → Bytes → Bytes → Nat → Nat →
    Except Int Bytes
  error_message : Int → Bytes

/-- A `random_device`: its entropy, and the value of each call of the distribution. -/
structure RandomDevice where
  entropy : Nat
  draw : Nat → Nat

/-- A salt of 16 bytes. -/
def randomSalt (rd : RandomDevice) : Bytes :=
  if rd.entropy = 32 then
    (List.range 4).flatMap fun i =>
      let val := rd.draw i
      [UInt8.ofNat val, UInt8.ofNat (val >>> 8), UInt8.ofNat (val >>> 16), UInt8.ofNat (val >>> 24)]
  else
    (List.range 8).flatMap fun i =>
      let val := rd.draw i
      [UInt8.ofNat val, UInt8.ofNat (val >>> 8)]

structure Argon2HashingEngine where
  algorithm : Algorithm := .argon2id
  timeCost : UInt32 := 2
  memoryCost : UInt32 := 65536
  parallelism : UInt32 := 1
  salt : Bytes := []
  hashLen : Nat := 32

namespace Argon2HashingEngine

def generateHash (lib : Argon2) (engine : Argon2HashingEngine) (rd : RandomDevice)
    (input : Bytes) : Except Exception Bytes :=
  if engine.salt ≠ [] ∧ engine.salt.length < 8 then
    .error ⟨10, bytes "Provided user-defined salt is not long enough"⟩
  else
    let actualSalt := if engine.salt = [] then randomSalt rd else engine.salt
    let encodedHashCeil := 50 + actualSalt.length * 4 / 3 + engine.hashLen * 4 / 3
    match lib.hash_encoded engine.algorithm engine.timeCost engine.memoryCost engine.parallelism
        input actualSalt engine.hashLen encodedHashCeil with
    | .error errorCode => .error ⟨10, bytes "Argon2 error: " ++ lib.error_message errorCode⟩
    | .ok c_hash => .ok (cString c_hash)

/-- The expressions `[0-9]+` and `[A-Za-z0-9+\/]+={0,2}`. -/
def digits : Regex UInt8 := plus (.sat isdigit)

def base64 : Regex UInt8 :=
  .seq (plus (.sat encoding.is_base64)) (.rep true 0 (some 2) (.sat (· = '='.toUInt8)))

/-- The expression of a hash, with groups for the algorithm (1), the version (3), the costs (4, 5,
6), the salt and the hash (7, 8). -/
def rgx : Regex UInt8 :=
  lit (bytes "$argon2") <|
    .seq (.group 1 (.alt (.sat (· = 'i'.toUInt8)) (.alt (.sat (· = 'd'.toUInt8))
      (.seq (.sat (· = 'i'.toUInt8)) (.sat (· = 'd'.toUInt8)))))) <|
    lit (bytes "$") <| .seq (opt (.group 2 (lit (bytes "v=") (.group 3 digits)))) <|
    lit (bytes "$m=") <| .seq (.group 4 digits) <|
    lit (bytes ",t=") <| .seq (.group 5 digits) <|
    lit (bytes ",p=") <| .seq (.group 6 digits) <|
    lit (bytes "$") <| .seq (.group 7 base64) <|
    lit (bytes "$") (.group 8 base64)

/-- The engine with the properties of a hash, and the hash itself. A number is cut to 32 bits. -/
def parse (hash : Bytes) : Option (Argon2HashingEngine × Bytes) :=
  match rgx.fullMatch hash with
  | none => none
  | some groups =>
    let text n := (groups n).getD []
    match stoul (text 3), stoul (text 4), stoul (text 5), stoul (text 6) with
    | .ok version1, .ok memoryCost1, .ok timeCost1, .ok parallelism1 =>
      let salt1 := encoding.base64Decode (text 7)
      let hash1 := encoding.base64Decode (text 8)
      if UInt32.ofNat version1 ≠ 19 then none
      else
        some ({ algorithm := if text 1 = bytes "d" then .argon2d
                  else if text 1 = bytes "id" then .argon2id else .argon2i
                timeCost := UInt32.ofNat timeCost1
                memoryCost := UInt32.ofNat memoryCost1
                parallelism := UInt32.ofNat parallelism1
                salt := salt1
                hashLen := hash1.length }, hash1)
    | _, _, _, _ => none

def verifyHash (lib : Argon2) (rd : RandomDevice) (input hash : Bytes) : Bool :=
  match parse hash with
  | none => false
  | some (engine1, hash1) =>
    match engine1.generateHash lib rd input with
    | .error _ => false
    | .ok inputHash =>
      let start := (Lib.Search.findLastElem '$'.toUInt8 inputHash).elim 0 (· + 1)
      let inputHash := encoding.base64Decode (inputHash.drop start)
      if hash1.length ≠ inputHash.length then false
      else (List.zipWith (· ^^^ ·) hash1 inputHash).foldl (· ||| ·) 0 = 0

end Argon2HashingEngine

end Nawa.hashing
