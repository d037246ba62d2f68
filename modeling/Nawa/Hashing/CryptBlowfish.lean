import Nawa.Hashing.Bcrypt
import Nawa.Hashing.BlowfishTables

/-!
# `crypt_blowfish`

The copy of the library that `libbcrypt` calls: settings from random bytes, and hashes of passwords.
`vendoredCrypt` puts its two entry points where the engine takes a `CryptBlowfish`.

A C string is the list of its characters in front of the terminating zero, so what is read behind
the list is zero. Words are read from memory and written to it in little-endian order. An answer
`none` is a null pointer; what the source leaves in a buffer then is read by no caller.
-/

namespace Nawa.hashing

/-- The character at a place of a C string. -/
def charAt (s : Bytes) (i : Nat) : UInt8 := s.getD i 0

/-! ## Text -/

def BF_itoa64 : Bytes := bytes "./ABCDEFGHIJKLMNOPQRSTUVWXYZabcdefghijklmnopqrstuvwxyz0123456789"

def BF_atoi64 : Bytes := [
  64, 64, 64, 64, 64, 64, 64, 64, 64, 64, 64, 64, 64, 64, 0, 1,
  54, 55, 56, 57, 58, 59, 60, 61, 62, 63, 64, 64, 64, 64, 64, 64,
  64, 2, 3, 4, 5, 6, 7, 8, 9, 10, 11, 12, 13, 14, 15, 16,
  17, 18, 19, 20, 21, 22, 23, 24, 25, 26, 27, 64, 64, 64, 64, 64,
  64, 28, 29, 30, 31, 32, 33, 34, 35, 36, 37, 38, 39, 40, 41, 42,
  43, 44, 45, 46, 47, 48, 49, 50, 51, 52, 53, 64, 64, 64, 64, 64]

/-- The letter of a value below 64. -/
def itoa (v : UInt8) : UInt8 := BF_itoa64.getD v.toNat 0

def BF_safe_atoi64 (src : UInt8) : Option UInt8 :=
  let tmp := src.toUInt32 - 0x20
  if 0x60 ≤ tmp then none
  else
    let tmp := BF_atoi64.getD tmp.toNat 64
    if 63 < tmp then none else some tmp

/-- The first `size` bytes that a text spells, of which there is always one. -/
def BF_decode : Nat → Bytes → Option Bytes
  | 0, src | 1, src => do
    let c1 ← BF_safe_atoi64 (charAt src 0)
    let c2 ← BF_safe_atoi64 (charAt src 1)
    return [(c1 <<< 2) ||| ((c2 &&& 0x30) >>> 4)]
  | 2, src => do
    let c1 ← BF_safe_atoi64 (charAt src 0)
    let c2 ← BF_safe_atoi64 (charAt src 1)
    let c3 ← BF_safe_atoi64 (charAt src 2)
    return [(c1 <<< 2) ||| ((c2 &&& 0x30) >>> 4), ((c2 &&& 0x0F) <<< 4) ||| ((c3 &&& 0x3C) >>> 2)]
  | size + 3, src => do
    let c1 ← BF_safe_atoi64 (charAt src 0)
    let c2 ← BF_safe_atoi64 (charAt src 1)
    let c3 ← BF_safe_atoi64 (charAt src 2)
    let c4 ← BF_safe_atoi64 (charAt src 3)
    let rest ← if size = 0 then some [] else BF_decode size (src.drop 4)
    return ((c1 <<< 2) ||| ((c2 &&& 0x30) >>> 4)) ::
      (((c2 &&& 0x0F) <<< 4) ||| ((c3 &&& 0x3C) >>> 2)) :: (((c3 &&& 0x03) <<< 6) ||| c4) :: rest

/-- Three bytes are four letters; a rest of one or two bytes is two or three letters. -/
def BF_encode : Bytes → Bytes
  | [] => []
  | [c1] => [itoa (c1 >>> 2), itoa ((c1 &&& 0x03) <<< 4)]
  | [c1, c2] =>
    [itoa (c1 >>> 2), itoa (((c1 &&& 0x03) <<< 4) ||| (c2 >>> 4)), itoa ((c2 &&& 0x0f) <<< 2)]
  | c1 :: c2 :: c3 :: rest =>
    itoa (c1 >>> 2) :: itoa (((c1 &&& 0x03) <<< 4) ||| (c2 >>> 4)) ::
      itoa (((c2 &&& 0x0f) <<< 2) ||| (c3 >>> 6)) :: itoa (c3 &&& 0x3f) :: BF_encode rest

/-! ## Words -/

/-- The words that bytes of the memory are. -/
def words : Bytes → List UInt32
  | b0 :: b1 :: b2 :: b3 :: rest =>
    (b0.toUInt32 ||| (b1.toUInt32 <<< 8) ||| (b2.toUInt32 <<< 16) ||| (b3.toUInt32 <<< 24)) ::
      words rest
  | _ => []

/-- The bytes of words in the memory. -/
def memory (ws : List UInt32) : Bytes :=
  ws.flatMap fun w : UInt32 =>
    [w.toUInt8, (w >>> 8).toUInt8, (w >>> 16).toUInt8, (w >>> 24).toUInt8]

def BF_swap (x : UInt32) : UInt32 :=
  let tmp := (x <<< 16) ||| (x >>> 16)
  ((tmp &&& 0x00FF00FF) <<< 8) ||| ((tmp >>> 8) &&& 0x00FF00FF)

/-! ## The cipher -/

def BF_N : Nat := 16

def BF_magic_w : List (UInt32 × UInt32) :=
  [(0x4F727068, 0x65616E42), (0x65686F6C, 0x64657253), (0x63727944, 0x6F756274)]

structure BF_ctx where
  S : Array UInt32
  P : Array UInt32

namespace BF_ctx

/-- An entry of an S-box. -/
def sbox (ctx : BF_ctx) (k : Nat) (i : UInt32) : UInt32 := ctx.S.getD (0x100 * k + i.toNat) 0

def key (ctx : BF_ctx) (i : Nat) : UInt32 := ctx.P.getD i 0

def setP (ctx : BF_ctx) (i : Nat) (w : UInt32) : BF_ctx := { ctx with P := ctx.P.setIfInBounds i w }

def setS (ctx : BF_ctx) (i : Nat) (w : UInt32) : BF_ctx := { ctx with S := ctx.S.setIfInBounds i w }

/-- `P[i] ^= w`. -/
def xorP (ctx : BF_ctx) (i : Nat) (w : UInt32) : BF_ctx := ctx.setP i (ctx.key i ^^^ w)

end BF_ctx

/-- What a round makes of `R`. -/
def BF_ROUND (ctx : BF_ctx) (L R : UInt32) (N : Nat) : UInt32 :=
  let tmp1 := ctx.sbox 3 (L &&& 0xFF)
  let tmp2 := ctx.sbox 2 ((L >>> 8) &&& 0xFF)
  let tmp3 := ctx.sbox 1 ((L >>> 16) &&& 0xFF)
  let tmp3 := tmp3 + ctx.sbox 0 (L >>> 24)
  let tmp3 := tmp3 ^^^ tmp2
  let R := R ^^^ ctx.key (N + 1)
  let tmp3 := tmp3 + tmp1
  R ^^^ tmp3

/-- Encrypts one block. -/
def BF_ENCRYPT (ctx : BF_ctx) (L R : UInt32) : UInt32 × UInt32 :=
  let L := L ^^^ ctx.key 0
  let R := BF_ROUND ctx L R 0
  let L := BF_ROUND ctx R L 1
  let R := BF_ROUND ctx L R 2
  let L := BF_ROUND ctx R L 3
  let R := BF_ROUND ctx L R 4
  let L := BF_ROUND ctx R L 5
  let R := BF_ROUND ctx L R 6
  let L := BF_ROUND ctx R L 7
  let R := BF_ROUND ctx L R 8
  let L := BF_ROUND ctx R L 9
  let R := BF_ROUND ctx L R 10
  let L := BF_ROUND ctx R L 11
  let R := BF_ROUND ctx L R 12
  let L := BF_ROUND ctx R L 13
  let R := BF_ROUND ctx L R 14
  let L := BF_ROUND ctx R L 15
  (R ^^^ ctx.key (BF_N + 1), L)

/-- The variables that the loops carry. -/
structure Registers where
  ctx : BF_ctx
  L : UInt32
  R : UInt32

namespace Registers

/-- One block into `P[i]` and `P[i + 1]`, with salt (zeros for none) added in front of it. -/
def fillP (r : Registers) (saltL saltR : UInt32) (i : Nat) : Registers :=
  let (L, R) := BF_ENCRYPT r.ctx (r.L ^^^ saltL) (r.R ^^^ saltR)
  ⟨(r.ctx.setP i L).setP (i + 1) R, L, R⟩

/-- One block into the words `i` and `i + 1` of the S-boxes. -/
def fillS (r : Registers) (saltL saltR : UInt32) (i : Nat) : Registers :=
  let (L, R) := BF_ENCRYPT r.ctx (r.L ^^^ saltL) (r.R ^^^ saltR)
  ⟨(r.ctx.setS i L).setS (i + 1) R, L, R⟩

end Registers

def BF_body (ctx : BF_ctx) : BF_ctx :=
  let r : Registers := ⟨ctx, 0, 0⟩
  let r := (List.range ((BF_N + 2) / 2)).foldl (fun r k => r.fillP 0 0 (2 * k)) r
  let r := (List.range (4 * 0x100 / 2)).foldl (fun r k => r.fillS 0 0 (2 * k)) r
  r.ctx

/-! ## Keys -/

/-- A character of the key as a word, correctly and with the sign extension of older revisions. -/
def signExtend (c : UInt8) : UInt32 := if c < 0x80 then c.toUInt32 else c.toUInt32 ||| 0xFFFFFF00

/-- The state of the loop over the words of a key. -/
structure KeyLoop where
  ptr : Nat
  sign : UInt32
  diff : UInt32
  expanded : List UInt32
  initial : List UInt32

/-- The words `tmp[0]` and `tmp[1]`, `sign` and the place behind the characters read, from the
character with number `j` of a word. -/
def BF_set_key_char (key : Bytes) (j : Nat) :
    UInt32 × UInt32 × UInt32 × Nat → UInt32 × UInt32 × UInt32 × Nat
  | (tmp0, tmp1, sign, ptr) =>
    let c := charAt key ptr
    let tmp0 := (tmp0 <<< 8) ||| c.toUInt32
    let tmp1 := (tmp1 <<< 8) ||| signExtend c
    let sign := if j ≠ 0 then sign ||| (tmp1 &&& 0x80) else sign
    (tmp0, tmp1, sign, if c = 0 then 0 else ptr + 1)

def BF_set_key_word (key : Bytes) (bug : Bool) (k : KeyLoop) (i : Nat) : KeyLoop :=
  let (tmp0, tmp1, sign, ptr) :=
    (List.range 4).foldl (fun s j => BF_set_key_char key j s) (0, 0, k.sign, k.ptr)
  let word := if bug then tmp1 else tmp0
  { ptr := ptr
    sign := sign
    diff := k.diff ||| (tmp0 ^^^ tmp1)
    expanded := k.expanded ++ [word]
    initial := k.initial ++ [BF_init_state_P.getD i 0 ^^^ word] }

/-- The expanded key, and the P-box that the setup starts with. -/
def BF_set_key (key : Bytes) (flags : UInt32) : List UInt32 × List UInt32 :=
  let bug := flags &&& 1
  let safety := (flags &&& 2) <<< 15
  let k := (List.range (BF_N + 2)).foldl (BF_set_key_word key (bug ≠ 0)) ⟨0, 0, 0, [], []⟩
  let diff := k.diff ||| (k.diff >>> 16)
  let diff := diff &&& 0xffff
  let diff := diff + 0xffff
  let sign := k.sign <<< 9
  let sign := sign &&& (~~~ diff &&& safety)
  (k.expanded, k.initial.modify 0 (· ^^^ sign))

/-! ## Hashes -/

def flags_by_subtype : List UInt32 :=
  [2, 4, 0, 0, 0, 0, 0, 0, 0, 0, 0, 0, 0, 0, 0, 0, 0, 0, 0, 0, 0, 0, 0, 1, 4, 0]

/-- The flags of a subtype; zero for those that do not exist. -/
def subtypeFlags (c : UInt8) : UInt32 :=
  if c < 'a'.toUInt8 ∨ 'z'.toUInt8 < c then 0 else flags_by_subtype.getD (c.toNat - 97) 0

/-- Whether a setting begins as settings do. -/
def acceptsSetting (setting : Bytes) : Bool :=
  let c := charAt setting
  c 0 = '$'.toUInt8 ∧ c 1 = '2'.toUInt8 ∧ subtypeFlags (c 2) ≠ 0 ∧ c 3 = '$'.toUInt8 ∧
    ('0'.toUInt8 ≤ c 4 ∧ c 4 ≤ '3'.toUInt8) ∧ ('0'.toUInt8 ≤ c 5 ∧ c 5 ≤ '9'.toUInt8) ∧
    ¬ (c 4 = '3'.toUInt8 ∧ '1'.toUInt8 < c 5) ∧ c 6 = '$'.toUInt8

/-- `1 << (digits of the setting)`. -/
def settingCount (setting : Bytes) : Nat :=
  2 ^ (((charAt setting 4).toNat - 48) * 10 + ((charAt setting 5).toNat - 48))

/-- The setup with the salt: the P-box, then the S-boxes, two blocks at a time. -/
def BF_setup (salt : List UInt32) (initial : List UInt32) : BF_ctx :=
  let word i := salt.getD i 0
  let r : Registers := ⟨⟨BF_init_state_S, initial.toArray⟩, 0, 0⟩
  let r := (List.range ((BF_N + 2) / 2)).foldl
    (fun r k => r.fillP (word (2 * k % 4)) (word (2 * k % 4 + 1)) (2 * k)) r
  let r := (List.range (4 * 0x100 / 4)).foldl
    (fun r k => (r.fillS (word ((BF_N + 2) % 4)) (word ((BF_N + 3) % 4)) (4 * k)).fillS
      (word ((BF_N + 4) % 4)) (word ((BF_N + 5) % 4)) (4 * k + 2)) r
  r.ctx

/-- One turn of the loop that makes hashing slow: the key, then the salt. -/
def BF_turn (salt expanded : List UInt32) (ctx : BF_ctx) : BF_ctx :=
  let ctx := (List.range (BF_N + 2)).foldl (fun ctx i => ctx.xorP i (expanded.getD i 0)) ctx
  let ctx := BF_body ctx
  let ctx := (List.range (BF_N + 2)).foldl (fun ctx i => ctx.xorP i (salt.getD (i % 4) 0)) ctx
  BF_body ctx

/-- The words of the hash: each block of the magic text is encrypted 64 times. -/
def BF_output (ctx : BF_ctx) : List UInt32 :=
  BF_magic_w.flatMap fun block =>
    let (L, R) := (fun b : UInt32 × UInt32 => BF_ENCRYPT ctx b.1 b.2)^[64] block
    [L, R]

/-- The words of the hash of a key, after `count` turns. -/
def BF_hash (key : Bytes) (flags : UInt32) (salt : List UInt32) (count : Nat) : List UInt32 :=
  let (expanded, initial) := BF_set_key key flags
  BF_output ((BF_turn salt expanded)^[count] (BF_setup salt initial))

/-- `size` is not in question here: all callers have room for the hash. -/
def BF_crypt (key setting : Bytes) (min : Nat) : Option Bytes :=
  if ¬ acceptsSetting setting then none
  else if settingCount setting < min then none
  else do
    let decoded ← BF_decode 16 (setting.drop 7)
    let salt := (words decoded).map BF_swap
    let output := BF_hash key (subtypeFlags (charAt setting 2)) salt (settingCount setting)
    -- of the last letter of the salt only two bits are used, and the others are not copied
    let last := itoa (BF_atoi64.getD ((charAt setting 28).toNat - 0x20) 64 &&& 0x30)
    return setting.take (7 + 22 - 1) ++ [last] ++
      BF_encode ((memory (output.map BF_swap)).take 23)

def test_key : Bytes := bytes "8b " ++ [0xd0, 0xc1, 0xd2, 0xcf, 0xcc, 0xd8]

def test_setting : Bytes := bytes "$2a$00$abcdefghijklmnopqrstuu"

def test_hashes : List Bytes :=
  [bytes "i1D709vfamulimlGcq0qq3UvuUasvEa", bytes "VUrPmXD6q/nVSSp7pNDhCR9071IfIRe"]

/-- The runtime self-test, with the subtype of the setting if there is one to test. -/
def selfTest (subtype : Option UInt8) : Bool :=
  let test_hash := match subtype with
    | none => test_hashes.getD 0 []
    | some c => test_hashes.getD (subtypeFlags c &&& 1).toNat []
  let s := match subtype with
    | none => test_setting
    | some c => test_setting.set 2 c
  let k := [0xff, 0xa3] ++ bytes "34" ++ [0xff, 0xff, 0xff, 0xa3] ++ bytes "345"
  let (ae, ai) := BF_set_key k 2
  let (ye, yi) := BF_set_key k 4
  let ai := ai.modify 0 (· ^^^ 0x10000)
  BF_crypt test_key s 1 = some (s.take (7 + 22) ++ test_hash) ∧
    ai.getD 0 0 = 0xdb9c59bc ∧ ye.getD 17 0 = 0x33343500 ∧ ae = ye ∧ ai = yi

def _crypt_blowfish_rn (key setting : Bytes) : Option Bytes :=
  let retval := BF_crypt key setting 16
  if selfTest (if retval.isSome then some (charAt setting 2) else none) then retval else none

/-! ## Settings -/

def _crypt_gensalt_blowfish_rn (kind : Bytes) (count : Nat) (input : Bytes) : Option Bytes :=
  let c := charAt kind
  if input.length < 16 ∨ (count ≠ 0 ∧ (count < 4 ∨ 31 < count)) ∨ c 0 ≠ '$'.toUInt8 ∨
      c 1 ≠ '2'.toUInt8 ∨ (c 2 ≠ 'a'.toUInt8 ∧ c 2 ≠ 'b'.toUInt8 ∧ c 2 ≠ 'y'.toUInt8) then none
  else
    let count := if count = 0 then 5 else count
    some ('$'.toUInt8 :: '2'.toUInt8 :: c 2 :: '$'.toUInt8 :: UInt8.ofNat (48 + count / 10) ::
      UInt8.ofNat (48 + count % 10) :: '$'.toUInt8 :: BF_encode (input.take 16))

def _crypt_itoa64 : Bytes :=
  bytes "./0123456789ABCDEFGHIJKLMNOPQRSTUVWXYZabcdefghijklmnopqrstuvwxyz"

/-- `count` letters of a number, the lowest bits first. -/
def crypt_letters (value : Nat) (count : Nat) : Bytes :=
  (List.range count).map fun i => _crypt_itoa64.getD (value / 64 ^ i % 64) 0

def _crypt_gensalt_traditional_rn (count : Nat) (input : Bytes) : Option Bytes :=
  if input.length < 2 ∨ (count ≠ 0 ∧ count ≠ 25) then none
  else some ((input.take 2).flatMap fun c => crypt_letters c.toNat 1)

/-- Three bytes from a place, the lowest first. -/
def crypt_value (input : Bytes) (i : Nat) : Nat :=
  (charAt input i).toNat + (charAt input (i + 1)).toNat * 2 ^ 8 +
    (charAt input (i + 2)).toNat * 2 ^ 16

def _crypt_gensalt_extended_rn (count : Nat) (input : Bytes) : Option Bytes :=
  if input.length < 3 ∨ (count ≠ 0 ∧ (0xffffff < count ∨ count % 2 = 0)) then none
  else
    let count := if count = 0 then 725 else count
    some (bytes "_" ++ crypt_letters count 4 ++ crypt_letters (crypt_value input 0) 4)

def _crypt_gensalt_md5_rn (count : Nat) (input : Bytes) : Option Bytes :=
  if input.length < 3 ∨ (count ≠ 0 ∧ count ≠ 1000) then none
  else some (bytes "$1$" ++ crypt_letters (crypt_value input 0) 4 ++
    if 6 ≤ input.length then crypt_letters (crypt_value input 3) 4 else [])

def crypt_gensalt_rn (kind : Bytes) (count : Nat) (input : Bytes) : Option Bytes :=
  if kind.take 4 = bytes "$2a$" ∨ kind.take 4 = bytes "$2b$" ∨ kind.take 4 = bytes "$2y$" then
    _crypt_gensalt_blowfish_rn kind count input
  else if kind.take 3 = bytes "$1$" then _crypt_gensalt_md5_rn count input
  else if kind.take 1 = bytes "_" then _crypt_gensalt_extended_rn count input
  else if kind = [] ∨ (2 ≤ kind.length ∧ kind.take 2 ⊆ _crypt_itoa64) then
    _crypt_gensalt_traditional_rn count input
  else none

/-- The library as it stands in the repository. -/
def vendoredCrypt : CryptBlowfish where
  crypt_gensalt_rn := crypt_gensalt_rn
  crypt_rn := _crypt_blowfish_rn

end Nawa.hashing
