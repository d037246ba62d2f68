import Nawa.Laws.Hashing.Bcrypt
import Nawa.Laws.Util.Base64

/-!
# Laws of the Argon2 engine

Verification takes a hash apart, and what it finds are the parameters that the hash was made with.
So it repeats the call of the library, and compares two outputs of it.
-/

namespace Nawa.hashing

open Lib (Regex)
open Lib.Regex

/-! ## The encoded form -/

/-- Base64 without padding. -/
def unpadded (s : Bytes) : Bytes := (encoding.encodeGroups s).filter encoding.is_base64

def Algorithm.name : Algorithm → Bytes
  | .argon2i => bytes "i"
  | .argon2d => bytes "d"
  | .argon2id => bytes "id"

/-- The text that holds the parameters, the salt and the hash. -/
def encodedHash (algorithm : Algorithm) (timeCost memoryCost parallelism : UInt32)
    (salt hash : Bytes) : Bytes :=
  bytes "$argon2" ++ (algorithm.name ++ (bytes "$" ++ (bytes "v=" ++ (decimal 19 ++
    (bytes "$m=" ++ (decimal memoryCost.toNat ++ (bytes ",t=" ++ (decimal timeCost.toNat ++
    (bytes ",p=" ++ (decimal parallelism.toNat ++ (bytes "$" ++ (unpadded salt ++
    (bytes "$" ++ unpadded hash)))))))))))))

/-- What is documented of the library: a call that succeeds has computed a hash of the length that
was asked for, which is not too short, and has encoded it. -/
def Argon2.Documented (lib : Argon2)
    (output : Algorithm → UInt32 → UInt32 → UInt32 → Bytes → Bytes → Nat → Bytes) : Prop :=
  ∀ {algorithm timeCost memoryCost parallelism pwd salt hashLen size text},
    lib.hash_encoded algorithm timeCost memoryCost parallelism pwd salt hashLen size = .ok text →
      text = encodedHash algorithm timeCost memoryCost parallelism salt
        (output algorithm timeCost memoryCost parallelism pwd salt hashLen) ∧
      (output algorithm timeCost memoryCost parallelism pwd salt hashLen).length = hashLen ∧
      4 ≤ hashLen

/-- The hash is what follows the last dollar sign. -/
theorem encodedHash_eq_append (algorithm : Algorithm) (timeCost memoryCost parallelism : UInt32)
    (salt hash : Bytes) :
    ∃ parameters, encodedHash algorithm timeCost memoryCost parallelism salt hash =
      parameters ++ '$'.toUInt8 :: unpadded hash := by
  refine ⟨bytes "$argon2" ++ (algorithm.name ++ (bytes "$" ++ (bytes "v=" ++ (decimal 19 ++
    (bytes "$m=" ++ (decimal memoryCost.toNat ++ (bytes ",t=" ++ (decimal timeCost.toNat ++
    (bytes ",p=" ++ (decimal parallelism.toNat ++ (bytes "$" ++ unpadded salt))))))))))), ?_⟩
  simp only [encodedHash, List.append_assoc]
  rfl

theorem zero_not_mem_encodedHash (algorithm : Algorithm)
    (timeCost memoryCost parallelism : UInt32) (salt hash : Bytes) :
    0 ∉ encodedHash algorithm timeCost memoryCost parallelism salt hash := by
  have hdecimal : ∀ n, 0 ∉ decimal n := fun n h => absurd (isdigit_of_mem_decimal h) (by decide)
  have hunpadded : ∀ s, 0 ∉ unpadded s := fun s h => absurd (List.mem_filter.mp h).2 (by decide)
  have hname : 0 ∉ algorithm.name := by cases algorithm <;> decide
  simp only [encodedHash, List.mem_append, not_or]
  refine ⟨by decide, hname, by decide, by decide, hdecimal _, by decide, hdecimal _, by decide,
    hdecimal _, by decide, hdecimal _, by decide, hunpadded _, by decide, hunpadded _⟩

/-! ## Base64 -/

/-- The padding is all that is missing. -/
theorem encodeGroups_unpadded (s : Bytes) :
    encoding.encodeGroups s = unpadded s ++ List.replicate (encoding.padding s) '='.toUInt8 ∧
      (unpadded s).length + encoding.padding s = 4 * ((s.length + 2) / 3) := by
  obtain ⟨cs, heq, hcs, hlen⟩ := encoding.encodeGroups_eq s
  have hpadding : (List.replicate (encoding.padding s) '='.toUInt8).filter encoding.is_base64 =
      [] := by
    refine List.filter_eq_nil_iff.mpr fun c hc => ?_
    rw [List.eq_of_mem_replicate hc]
    decide
  have hunpadded : unpadded s = cs := by
    rw [unpadded, heq, List.filter_append, hpadding, List.append_nil, List.filter_eq_self.mpr hcs]
  rw [hunpadded]
  exact ⟨heq, hlen⟩

theorem is_base64_of_mem_unpadded {s : Bytes} {c : UInt8} (h : c ∈ unpadded s) :
    encoding.is_base64 c = true :=
  (List.mem_filter.mp h).2

theorem unpadded_ne_nil {s : Bytes} (h : s ≠ []) : unpadded s ≠ [] := by
  have hlen := (encodeGroups_unpadded s).2
  have hpos := List.length_pos_iff.mpr h
  have hpadding : encoding.padding s < 3 := Nat.mod_lt _ (by decide)
  exact List.length_pos_iff.mp (by omega)

theorem base64Decode_unpadded (s : Bytes) : encoding.base64Decode (unpadded s) = s := by
  have hall : ∀ c ∈ unpadded s, encoding.is_base64 c = true := fun c => is_base64_of_mem_unpadded
  have hletters : encoding.letters (unpadded s) = encoding.letters (encoding.encodeGroups s) := by
    have hempty : encoding.letters [] = [] := rfl
    rw [(encodeGroups_unpadded s).1, encoding.letters_append_letters hall,
      encoding.letters_padding, List.append_nil, ← List.append_nil (unpadded s),
      encoding.letters_append_letters hall, hempty]
  rw [encoding.base64Decode_eq, hletters, encoding.decodeGroups_encodeGroups]

/-! ## The expression -/

section Expression

variable {β : Type} {r : Regex UInt8} {c : Captures UInt8} {k : Continuation UInt8 β} {v : β}

theorem run_algorithm (algorithm : Algorithm) (rest : Bytes) :
    (Regex.seq (.group 1 (.alt (.sat (· = 'i'.toUInt8)) (.alt (.sat (· = 'd'.toUInt8))
      (.seq (.sat (· = 'i'.toUInt8)) (.sat (· = 'd'.toUInt8)))))) (lit (bytes "$") r)).run
        (algorithm.name ++ (bytes "$" ++ rest)) c k =
      r.run rest (Function.update c 1 (some algorithm.name)) k := by
  have hdollar : ∀ x t d, x ≠ '$'.toUInt8 →
      (lit (bytes "$") r).run (x :: t) d k = none := by
    intro x t d hx
    refine run_lit_of_not_prefix r fun h => hx ?_
    exact (List.cons_prefix_cons.mp h).1.symm
  have htake : (algorithm.name ++ (bytes "$" ++ rest)).take
      ((algorithm.name ++ (bytes "$" ++ rest)).length - (bytes "$" ++ rest).length) =
        algorithm.name := take_sub_length
  have hrun : ∀ d, (lit (bytes "$") r).run (bytes "$" ++ rest) d k = r.run rest d k :=
    fun d => run_lit_append (bytes "$") r
  rw [run_seq, run_group]
  cases algorithm with
  | argon2i =>
    have hname : Algorithm.argon2i.name ++ (bytes "$" ++ rest) =
      'i'.toUInt8 :: (bytes "$" ++ rest) := rfl
    rw [hname] at htake ⊢
    simp only [run_alt, run_seq, run_sat_cons, decide_true, if_true, htake, hrun]
    rw [if_neg (by decide), Option.none_or]
    exact Option.or_none
  | argon2d =>
    have hname : Algorithm.argon2d.name ++ (bytes "$" ++ rest) =
      'd'.toUInt8 :: (bytes "$" ++ rest) := rfl
    rw [hname] at htake ⊢
    simp only [run_alt, run_seq, run_sat_cons, decide_true, if_true, htake, hrun]
    rw [if_neg (by decide), if_neg (by decide), Option.none_or, Option.or_none]
  | argon2id =>
    have hname : Algorithm.argon2id.name ++ (bytes "$" ++ rest) =
      'i'.toUInt8 :: 'd'.toUInt8 :: (bytes "$" ++ rest) := rfl
    have hd : 'd'.toUInt8 ≠ '$'.toUInt8 := by decide
    rw [hname] at htake ⊢
    simp only [run_alt, run_seq, run_sat_cons, decide_true, if_true, htake, hrun, hdollar _ _ _ hd,
      Option.none_or]
    rw [if_neg (by decide), Option.none_or]

theorem run_digits {n : Nat} {ds ys : Bytes} (hne : ds ≠ []) (hds : ∀ d ∈ ds, isdigit d = true)
    (hys : ∀ y ∈ ys.head?, isdigit y = false)
    (h : r.run ys (Function.update c n (some ds)) k = some v) :
    (Regex.seq (.group n Argon2HashingEngine.digits) r).run (ds ++ ys) c k = some v := by
  rw [run_seq]
  exact run_group_plus_sat hne hds hys h

theorem run_version {ds ys : Bytes} (hne : ds ≠ []) (hds : ∀ d ∈ ds, isdigit d = true)
    (hys : ∀ y ∈ ys.head?, isdigit y = false)
    (h : r.run ys (Function.update (Function.update c 3 (some ds)) 2 (some (bytes "v=" ++ ds))) k =
      some v) :
    (Regex.seq (opt (.group 2 (lit (bytes "v=") (.group 3 Argon2HashingEngine.digits)))) r).run
      (bytes "v=" ++ (ds ++ ys)) c k = some v := by
  rw [run_seq]
  refine run_opt_some (List.append_ne_nil_of_left_ne_nil (by decide) _) ?_
  rw [run_group, run_lit_append]
  refine run_group_plus_sat hne hds hys ?_
  have hlen : ¬ ys.length = (bytes "v=" ++ (ds ++ ys)).length := by
    have hpos : 0 < (bytes "v=").length := by decide
    rw [List.length_append, List.length_append]
    omega
  have htake : (bytes "v=" ++ (ds ++ ys)).take
      ((bytes "v=" ++ (ds ++ ys)).length - ys.length) = bytes "v=" ++ ds := by
    rw [← List.append_assoc]
    exact take_sub_length
  rw [if_neg hlen, htake]
  exact h

theorem run_base64 {n : Nat} {cs ys : Bytes} (hne : cs ≠ [])
    (hcs : ∀ x ∈ cs, encoding.is_base64 x = true)
    (hys : ∀ y ∈ ys.head?, encoding.is_base64 y = false ∧ y ≠ '='.toUInt8)
    (h : k ys (Function.update c n (some cs)) = some v) :
    (Regex.group n Argon2HashingEngine.base64).run (cs ++ ys) c k = some v := by
  rw [run_group, Argon2HashingEngine.base64, run_seq]
  refine run_plus_sat_longest hne hcs (fun y hy => (hys y hy).1) ?_
  rw [run_rep_sat_of_not fun y hy => decide_eq_false (hys y hy).2, take_sub_length]
  exact h

end Expression

/-- What comes first after a part is the first byte of the literal that follows. -/
theorem forall_head_append {p : UInt8 → Prop} {w : Bytes} {x : UInt8} (hw : w.head? = some x)
    (hx : p x) (rest : Bytes) : ∀ y ∈ (w ++ rest).head?, p y := by
  intro y hy
  rw [List.head?_append, hw, Option.some_or, Option.mem_some_iff] at hy
  exact hy ▸ hx

namespace Argon2HashingEngine

/-- The captures of an encoded hash. -/
def captures (algorithm : Algorithm) (timeCost memoryCost parallelism : UInt32)
    (salt hash : Bytes) : Captures UInt8 :=
  let version : Captures UInt8 :=
    Function.update (Function.update (Function.update (fun _ => none) 1 (some algorithm.name))
      3 (some (decimal 19))) 2 (some (bytes "v=" ++ decimal 19))
  let costs : Captures UInt8 :=
    Function.update (Function.update (Function.update version 4 (some (decimal memoryCost.toNat)))
      5 (some (decimal timeCost.toNat))) 6 (some (decimal parallelism.toNat))
  Function.update (Function.update costs 7 (some (unpadded salt))) 8 (some (unpadded hash))

theorem fullMatch_encodedHash (algorithm : Algorithm) (timeCost memoryCost parallelism : UInt32)
    {salt hash : Bytes} (hsalt : salt ≠ []) (hhash : hash ≠ []) :
    rgx.fullMatch (encodedHash algorithm timeCost memoryCost parallelism salt hash) =
      some (captures algorithm timeCost memoryCost parallelism salt hash) := by
  have hdigits : ∀ n, ∀ d ∈ decimal n, isdigit d = true := fun n _ => isdigit_of_mem_decimal
  have hbase64 : ∀ s, ∀ c ∈ unpadded s, encoding.is_base64 c = true :=
    fun s _ => is_base64_of_mem_unpadded
  rw [fullMatch, rgx, encodedHash, run_lit_append, run_algorithm]
  refine run_version (decimal_ne_nil _) (hdigits _) (forall_head_append rfl (by decide) _) ?_
  rw [run_lit_append]
  refine run_digits (decimal_ne_nil _) (hdigits _) (forall_head_append rfl (by decide) _) ?_
  rw [run_lit_append]
  refine run_digits (decimal_ne_nil _) (hdigits _) (forall_head_append rfl (by decide) _) ?_
  rw [run_lit_append]
  refine run_digits (decimal_ne_nil _) (hdigits _) (forall_head_append rfl (by decide) _) ?_
  rw [run_lit_append, run_seq]
  refine run_base64 (unpadded_ne_nil hsalt) (hbase64 salt)
    (forall_head_append rfl (by decide) _) ?_
  rw [run_lit_append, ← List.append_nil (unpadded hash)]
  refine run_base64 (unpadded_ne_nil hhash) (hbase64 hash)
    (fun y hy => absurd hy (Option.not_mem_none y)) ?_
  exact if_pos rfl

theorem algorithm_of_name (algorithm : Algorithm) :
    (if algorithm.name = bytes "d" then Algorithm.argon2d
      else if algorithm.name = bytes "id" then .argon2id else .argon2i) = algorithm := by
  cases algorithm <;> decide

/-- Every parameter is found again. -/
theorem parse_encodedHash (algorithm : Algorithm) (timeCost memoryCost parallelism : UInt32)
    {salt hash : Bytes} (hsalt : salt ≠ []) (hhash : hash ≠ []) :
    parse (encodedHash algorithm timeCost memoryCost parallelism salt hash) =
      some (
        { algorithm := algorithm
          timeCost := timeCost
          memoryCost := memoryCost
          parallelism := parallelism
          salt := salt
          hashLen := hash.length }, hash) := by
  have hstoul : ∀ n : UInt32, stoul (decimal n.toNat) = .ok n.toNat := fun n =>
    stoul_decimal (n.toNat_lt.trans (by decide))
  have hversion : stoul (decimal 19) = .ok 19 := stoul_decimal (by decide)
  rw [parse, fullMatch_encodedHash _ _ _ _ hsalt hhash]
  simp [captures, hversion, hstoul, base64Decode_unpadded, algorithm_of_name]

/-! ## Generation -/

def actualSalt (engine : Argon2HashingEngine) (rd : RandomDevice) : Bytes :=
  if engine.salt = [] then randomSalt rd else engine.salt

/-- The engine that verification builds. -/
def seeded (engine : Argon2HashingEngine) (rd : RandomDevice) : Argon2HashingEngine :=
  { engine with salt := engine.actualSalt rd }

theorem length_randomSalt (rd : RandomDevice) : (randomSalt rd).length = 16 := by
  rw [randomSalt]
  split <;> simp [List.length_flatMap]

theorem length_actualSalt {engine : Argon2HashingEngine} (rd : RandomDevice)
    (h : ¬ (engine.salt ≠ [] ∧ engine.salt.length < 8)) : 8 ≤ (engine.actualSalt rd).length := by
  rw [actualSalt]
  split
  · rw [length_randomSalt]
    decide
  · next hne => exact Nat.le_of_not_lt fun hlt => h ⟨hne, hlt⟩

section Calls

variable {lib : Argon2}
  {output : Algorithm → UInt32 → UInt32 → UInt32 → Bytes → Bytes → Nat → Bytes}
  {engine : Argon2HashingEngine} {rd : RandomDevice} {input h : Bytes}

/-- With the salt that was used, the library is called again as it was called before. -/
theorem generateHash_seeded (hhash : engine.generateHash lib rd input = .ok h)
    (rd' : RandomDevice) :
    8 ≤ (engine.actualSalt rd).length ∧ (engine.seeded rd).generateHash lib rd' input = .ok h := by
  rw [generateHash] at hhash
  split at hhash
  · cases hhash
  · next hlong =>
    have hlen := length_actualSalt rd hlong
    have hne : (engine.seeded rd).salt ≠ [] :=
      List.ne_nil_of_length_pos (Nat.lt_of_lt_of_le (by decide) hlen)
    have hlong' : ¬ ((engine.seeded rd).salt ≠ [] ∧ (engine.seeded rd).salt.length < 8) :=
      fun hshort => Nat.not_lt_of_le hlen hshort.2
    refine ⟨hlen, ?_⟩
    rw [generateHash, if_neg hlong', if_neg hne]
    exact hhash

/-- A hash is an encoded one, without zero bytes. -/
theorem generateHash_eq_ok (hlib : lib.Documented output)
    (hhash : engine.generateHash lib rd input = .ok h) :
    h = encodedHash engine.algorithm engine.timeCost engine.memoryCost engine.parallelism
        (engine.actualSalt rd) (output engine.algorithm engine.timeCost engine.memoryCost
          engine.parallelism input (engine.actualSalt rd) engine.hashLen) ∧
      (output engine.algorithm engine.timeCost engine.memoryCost engine.parallelism input
        (engine.actualSalt rd) engine.hashLen).length = engine.hashLen ∧ 4 ≤ engine.hashLen := by
  rw [generateHash] at hhash
  split at hhash
  · cases hhash
  · dsimp only at hhash
    split at hhash
    · cases hhash
    · next c_hash hcall =>
      obtain ⟨htext, hlen⟩ := hlib hcall
      refine ⟨?_, hlen⟩
      rw [← Except.ok.inj hhash, htext]
      exact cString_eq_self (zero_not_mem_encodedHash _ _ _ _ _ _)

/-! ## Verification -/

/-- The bytes behind the last dollar sign are those of the hash. -/
theorem base64Decode_drop_encodedHash (algorithm : Algorithm)
    (timeCost memoryCost parallelism : UInt32) (salt hash : Bytes) :
    let text := encodedHash algorithm timeCost memoryCost parallelism salt hash
    encoding.base64Decode
      (text.drop ((Lib.Search.findLastElem '$'.toUInt8 text).elim 0 (· + 1))) = hash := by
  obtain ⟨parameters, htext⟩ :=
    encodedHash_eq_append algorithm timeCost memoryCost parallelism salt hash
  have hdollar : '$'.toUInt8 ∉ unpadded hash := fun h =>
    absurd (is_base64_of_mem_unpadded h) (by decide)
  have hdrop : (parameters ++ '$'.toUInt8 :: unpadded hash).drop (parameters.length + 1) =
      unpadded hash := by
    rw [← List.drop_drop, List.drop_left]
    rfl
  intro text
  rw [show text = _ from htext, Lib.Search.findLastElem_append_sep hdollar]
  exact (congrArg encoding.base64Decode hdrop).trans (base64Decode_unpadded hash)

/-- Verification makes the hash again, and compares the outputs. -/
theorem verifyHash_iff (hlib : lib.Documented output)
    (hhash : engine.generateHash lib rd input = .ok h) (rd' : RandomDevice) (other : Bytes) :
    verifyHash lib rd' other h = true ↔
      (∃ h', (engine.seeded rd).generateHash lib rd' other = .ok h') ∧
        output engine.algorithm engine.timeCost engine.memoryCost engine.parallelism other
            (engine.actualSalt rd) engine.hashLen =
          output engine.algorithm engine.timeCost engine.memoryCost engine.parallelism input
            (engine.actualSalt rd) engine.hashLen := by
  obtain ⟨hsalt, -⟩ := generateHash_seeded hhash rd'
  obtain ⟨rfl, hlen, hmin⟩ := generateHash_eq_ok hlib hhash
  have hsaltne : engine.actualSalt rd ≠ [] :=
    List.ne_nil_of_length_pos (Nat.lt_of_lt_of_le (by decide) hsalt)
  have hhashne := List.ne_nil_of_length_pos (hlen ▸ Nat.lt_of_lt_of_le (by decide) hmin)
  have hparse := parse_encodedHash engine.algorithm engine.timeCost engine.memoryCost
    engine.parallelism hsaltne hhashne
  rw [hlen] at hparse
  change _ = some (engine.seeded rd, _) at hparse
  have hseeded : (engine.seeded rd).actualSalt rd' = engine.actualSalt rd := if_neg hsaltne
  rw [verifyHash, hparse]
  dsimp only
  cases hother : (engine.seeded rd).generateHash lib rd' other with
  | error e =>
    refine iff_of_false Bool.false_ne_true ?_
    rintro ⟨⟨h', hok⟩, -⟩
    cases hok
  | ok h' =>
    obtain ⟨rfl, hlen', -⟩ := generateHash_eq_ok hlib hother
    rw [hseeded] at hlen' ⊢
    have hlengths := hlen.trans hlen'.symm
    rw [and_iff_right ⟨_, rfl⟩]
    dsimp only
    rw [base64Decode_drop_encodedHash, if_neg (not_not_intro hlengths), decide_eq_true_eq,
      foldl_xor_eq_zero_iff hlengths, eq_comm]
    rfl

end Calls

end Argon2HashingEngine

end Nawa.hashing

/-! ## Passwords -/

namespace Nawa.crypto

open hashing

theorem passwordVerify_argon2 {lib : Libraries} (s : Surroundings) (q : Bytes)
    (algorithm : Algorithm) (timeCost memoryCost parallelism : UInt32) (salt hash : Bytes) :
    let h := encodedHash algorithm timeCost memoryCost parallelism salt hash
    passwordVerify lib s q h getEngine =
      .ok (Argon2HashingEngine.verifyHash lib.argon2 s.randomDevice q h) := by
  intro h
  have hkind : h.take 4 = bytes "$arg" := rfl
  have hne : h ≠ [] := fun hnil => absurd (hnil ▸ hkind) (by decide)
  have hengine : getEngine h = some (.argon2 {}) := by
    rw [getEngine, hkind, if_neg (by decide)]
    refine if_pos ?_
    cases algorithm with
    | argon2i => exact .inr (.inl rfl)
    | argon2d => exact .inr (.inr rfl)
    | argon2id => exact .inl rfl
  rw [passwordVerify, if_neg hne, hengine]
  rfl

/-- A hash is verified with its password, and with another password only if its output is the
same. -/
theorem passwordVerify_generateHash {lib : Libraries}
    {output : Algorithm → UInt32 → UInt32 → UInt32 → Bytes → Bytes → Nat → Bytes}
    (hlib : lib.argon2.Documented output) {engine : Argon2HashingEngine} {rd : RandomDevice}
    {input h : Bytes} (hhash : engine.generateHash lib.argon2 rd input = .ok h)
    (s : Surroundings) :
    passwordVerify lib s input h getEngine = .ok true ∧
      ∀ other, passwordVerify lib s other h getEngine = .ok true →
        output engine.algorithm engine.timeCost engine.memoryCost engine.parallelism other
            (engine.actualSalt rd) engine.hashLen =
          output engine.algorithm engine.timeCost engine.memoryCost engine.parallelism input
            (engine.actualSalt rd) engine.hashLen := by
  have hverify := Argon2HashingEngine.verifyHash_iff hlib hhash s.randomDevice
  have hseeded := (Argon2HashingEngine.generateHash_seeded hhash s.randomDevice).2
  have hpassword : ∀ q, passwordVerify lib s q h getEngine =
      .ok (Argon2HashingEngine.verifyHash lib.argon2 s.randomDevice q h) := by
    intro q
    obtain ⟨rfl, -⟩ := Argon2HashingEngine.generateHash_eq_ok hlib hhash
    exact passwordVerify_argon2 s q _ _ _ _ _ _
  constructor
  · rw [hpassword, (hverify input).mpr ⟨⟨h, hseeded⟩, rfl⟩]
  · intro other hother
    rw [hpassword, Except.ok.injEq] at hother
    exact ((hverify other).mp hother).2

/-- A hash of Argon2i. -/
def somesaltHash : Bytes :=
  [193, 98, 136, 50, 20, 125, 151, 32, 197, 189, 28, 253, 97, 54, 112, 120,
    114, 159, 109, 251, 111, 143, 234, 159, 249, 129, 88, 224, 215, 129, 110, 208]

/-- A library that has memory for one hash. -/
def somesaltArgon2 : Argon2 where
  hash_encoded algorithm timeCost memoryCost parallelism pwd salt hashLen size :=
    if algorithm = .argon2i ∧ timeCost = 2 ∧ memoryCost = 65536 ∧ parallelism = 1 ∧
        pwd = bytes "password" ∧ salt = bytes "somesalt" ∧ hashLen = 32 ∧ 85 < size then
      .ok (bytes "$argon2i$v=19$m=65536,t=2,p=1$c29tZXNhbHQ" ++
        bytes "$wWKIMhR9lyDFvRz9YTZweHKfbftvj+qf+YFY4NeBbtA")
    else .error (-22)
  error_message _ := bytes "Memory allocation error"

def somesaltOutput (_ : Algorithm) (_ _ _ : UInt32) (pwd _ : Bytes) (_ : Nat) : Bytes :=
  if pwd = bytes "password" then somesaltHash else []

theorem documented_somesaltArgon2 : somesaltArgon2.Documented somesaltOutput := by
  intro algorithm timeCost memoryCost parallelism pwd salt hashLen size text h
  simp only [somesaltArgon2] at h
  split at h
  · next hcall =>
    obtain ⟨rfl, rfl, rfl, rfl, rfl, rfl, rfl, -⟩ := hcall
    cases h
    decide
  · cases h

def somesaltLibraries : Libraries where
  cryptBlowfish := knownCrypt
  argon2 := somesaltArgon2

theorem passwordVerify_generateHash_somesalt :
    let h := bytes "$argon2i$v=19$m=65536,t=2,p=1$c29tZXNhbHQ" ++
      bytes "$wWKIMhR9lyDFvRz9YTZweHKfbftvj+qf+YFY4NeBbtA"
    passwordVerify somesaltLibraries knownSurroundings (bytes "password") h getEngine = .ok true ∧
      ∀ other, passwordVerify somesaltLibraries knownSurroundings other h getEngine = .ok true →
        somesaltOutput .argon2i 2 65536 1 other (bytes "somesalt") 32 =
          somesaltOutput .argon2i 2 65536 1 (bytes "password") (bytes "somesalt") 32 := by
  intro h
  let engine : Argon2HashingEngine := { algorithm := .argon2i, salt := bytes "somesalt" }
  have hlib : somesaltLibraries.argon2.Documented somesaltOutput := documented_somesaltArgon2
  have hhash : engine.generateHash somesaltLibraries.argon2 knownSurroundings.randomDevice
      (bytes "password") = .ok h := by decide
  exact passwordVerify_generateHash hlib hhash knownSurroundings

end Nawa.crypto
