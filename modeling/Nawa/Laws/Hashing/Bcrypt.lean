import Nawa.Hashing.Crypto
import Nawa.Laws.Util.Bytes

/-!
# Laws of the bcrypt engine

A salt that is given by the user is copied to the wrong array, so it is never what a password is
hashed with. Two passwords are told apart where they differ before the first zero byte of either,
since C strings end there.
-/

namespace Nawa.hashing

/-! ## Comparison -/

theorem foldl_or_eq_zero_iff {a : UInt8} {l : Bytes} :
    l.foldl (· ||| ·) a = 0 ↔ a = 0 ∧ ∀ x ∈ l, x = 0 := by
  induction l generalizing a with
  | nil => simp only [List.foldl_nil, List.not_mem_nil, false_imp_iff, implies_true, and_true]
  | cons x l ih =>
    rw [List.foldl_cons, ih, List.forall_mem_cons, UInt8.or_eq_zero_iff, and_assoc]

/-- All bytes are compared, whatever the first ones say. -/
theorem foldl_xor_eq_zero_iff {s t : Bytes} (h : s.length = t.length) :
    (List.zipWith (· ^^^ ·) s t).foldl (· ||| ·) 0 = 0 ↔ s = t := by
  rw [foldl_or_eq_zero_iff, and_iff_right rfl]
  induction s generalizing t with
  | nil =>
    obtain rfl := List.length_eq_zero_iff.mp h.symm
    exact iff_of_true (List.forall_mem_nil _) rfl
  | cons x s ih =>
    obtain ⟨y, t, rfl⟩ := List.exists_cons_of_length_eq_add_one h.symm
    rw [List.zipWith_cons_cons, List.forall_mem_cons, UInt8.xor_eq_zero_iff,
      ih (Nat.succ.inj h), List.cons.injEq]

theorem timing_safe_strcmp_eq_zero_iff {s t : Bytes} : timing_safe_strcmp s t = 0 ↔ s = t := by
  rw [timing_safe_strcmp]
  split
  · next h => exact iff_of_false (by decide) fun heq => h (congrArg List.length heq)
  · next h =>
    rw [← foldl_xor_eq_zero_iff (not_not.mp h), ← UInt8.toNat_inj]
    exact Int.natCast_eq_zero

/-! ## Buffers -/

theorem cString_eq_self {s : Bytes} (h : 0 ∉ s) : cString s = s :=
  List.takeWhile_eq_self_iff.mpr fun _ hc => decide_eq_true fun hzero => h (hzero ▸ hc)

theorem cString_append {s : Bytes} (h : 0 ∉ s) (t : Bytes) : cString (s ++ 0 :: t) = s :=
  Lib.Search.takeWhile_append_sep h

theorem length_cString_le (s : Bytes) : (cString s).length ≤ s.length :=
  (List.takeWhile_prefix _).length_le

/-- What has been written is read. -/
theorem Buffer.exists_read_write (buffer : Buffer) (stack : Nat → UInt8) (s : Bytes) :
    ∃ rest, (buffer.write s).read stack = s ++ rest := by
  have hwritten : (s.map some).mapIdx (fun i c => c.getD (stack i)) = s :=
    List.ext_getElem (by simp) fun i h h' => by simp
  rw [Buffer.read, Buffer.write, List.mapIdx_append, hwritten]
  exact ⟨_, rfl⟩

/-! ## The salt of the user -/

/-- A salt cut or filled up to the size of the array. -/
def resized (salt : Bytes) : Bytes :=
  (salt ++ List.replicate BCRYPT_HASHSIZE 0).take BCRYPT_HASHSIZE

namespace BcryptHashingEngine

/-- What a salt of the user is for: `bcrypt_hashpw` gets it, and the hash depends on nothing that
the stack holds. -/
structure UsesSalt (lib : CryptBlowfish) (engine : BcryptHashingEngine) (input : Bytes) :
    Prop where
  salt : ∀ urandom, (engine.prepare lib urandom).map Prod.fst = .ok ((resized engine.salt).map some)
  hash : ∀ s s', engine.generateHash lib s input = engine.generateHash lib s' input

/-- The array of the salt stays as it was. -/
theorem prepare_userSalt (lib : CryptBlowfish) {engine : BcryptHashingEngine}
    (h : engine.salt ≠ []) (urandom : Except UrandomFailure Bytes) :
    (engine.prepare lib urandom).map Prod.fst = .ok Buffer.uninitialised := by
  rw [prepare, if_pos h]
  rfl

theorem resized_ne_uninitialised (salt : Bytes) :
    (resized salt).map some ≠ Buffer.uninitialised := by
  intro h
  have hlen : (resized salt).length = BCRYPT_HASHSIZE := by
    rw [resized, List.length_take, List.length_append, List.length_replicate]
    exact Nat.min_eq_left (Nat.le_add_left _ _)
  obtain ⟨c, rest, hcons⟩ := List.exists_cons_of_length_eq_add_one hlen
  rw [hcons] at h
  cases h

/-- No salt of the user is ever used. -/
theorem not_usesSalt (lib : CryptBlowfish) {engine : BcryptHashingEngine} (h : engine.salt ≠ [])
    (input : Bytes) : ¬ UsesSalt lib engine input := by
  intro huses
  have hprepared := (huses.salt (.ok [])).symm.trans (prepare_userSalt lib h (.ok []))
  exact resized_ne_uninitialised engine.salt (Except.ok.inj hprepared)

end BcryptHashingEngine

/-! ## What is documented of `crypt_blowfish` -/

/-- A setting and a hash are texts of fixed length that begin with the prefix; a hash holds its
setting, so that it reproduces itself. -/
structure CryptBlowfish.Documented (lib : CryptBlowfish) : Prop where
  gensalt : ∀ {workf input setting},
    lib.crypt_gensalt_rn (bytes "$2a$") workf input = some setting →
      0 ∉ setting ∧ setting.take 4 = bytes "$2a$"
  hash : ∀ {key setting output}, lib.crypt_rn key setting = some output →
    0 ∉ output ∧ output.length = 60 ∧ output.take 4 = setting.take 4
  reproduces : ∀ {key setting output}, lib.crypt_rn key setting = some output →
    lib.crypt_rn key output = some output

/-- The hashes of some passwords with one salt. -/
def knownCrypt : CryptBlowfish where
  crypt_gensalt_rn kind workf input :=
    if kind = bytes "$2a$" ∧ workf = 10 ∧
        input = [92, 101, 232, 32, 157, 58, 31, 166, 82, 56, 190, 96, 65, 178, 194, 90] then
      some (bytes "$2a$10$VEVmGHy4F4XQMJ3eOZJAUe")
    else none
  crypt_rn key setting :=
    if setting.take 29 = bytes "$2a$10$VEVmGHy4F4XQMJ3eOZJAUe" then
      if key = bytes "hi,mom" then
        some (bytes "$2a$10$VEVmGHy4F4XQMJ3eOZJAUeb.MedU0W10pTPCuf53eHdKJPiSE8sMK")
      else if key = bytes "hi,dad" then
        some (bytes "$2a$10$VEVmGHy4F4XQMJ3eOZJAUekk/TYvkMBTZFRjskKqJc6.2Mtc.QQBG")
      else if key = bytes "hi" then
        some (bytes "$2a$10$VEVmGHy4F4XQMJ3eOZJAUeD3q6jNkYRy/sSFAYmkha/RLpsPQUFJa")
      else none
    else none

/-- A setting of the known salt holds it. -/
theorem knownCrypt_eq_some {key setting output : Bytes}
    (h : knownCrypt.crypt_rn key setting = some output) :
    setting.take 29 = bytes "$2a$10$VEVmGHy4F4XQMJ3eOZJAUe" ∧
      output.take 29 = bytes "$2a$10$VEVmGHy4F4XQMJ3eOZJAUe" ∧ 0 ∉ output ∧ output.length = 60 := by
  simp only [knownCrypt] at h
  split at h
  · next hsetting =>
    refine ⟨hsetting, ?_⟩
    split at h
    · cases h
      decide
    · split at h
      · cases h
        decide
      · split at h
        · cases h
          decide
        · cases h
  · cases h

theorem documented_knownCrypt : knownCrypt.Documented where
  gensalt := by
    intro workf input setting h
    simp only [knownCrypt] at h
    split at h
    · cases h
      decide
    · cases h
  hash := by
    intro key setting output h
    obtain ⟨hsetting, houtput, hzero, hlen⟩ := knownCrypt_eq_some h
    have htake := congrArg (List.take 4) (houtput.trans hsetting.symm)
    rw [List.take_take, List.take_take] at htake
    exact ⟨hzero, hlen, htake⟩
  reproduces := by
    intro key setting output h
    obtain ⟨hsetting, houtput, -, -⟩ := knownCrypt_eq_some h
    rw [← h]
    simp only [knownCrypt, hsetting, houtput]

namespace BcryptHashingEngine

theorem not_usesSalt_known : ¬ UsesSalt knownCrypt
    { salt := bytes "$2a$10$VEVmGHy4F4XQMJ3eOZJAUe" } (bytes "hi,mom") :=
  not_usesSalt knownCrypt (by decide) (bytes "hi,mom")

/-- With one salt and one password, the stack decides whether there is a hash. -/
theorem not_forall_usesSalt : ¬ ∀ (lib : CryptBlowfish) (engine : BcryptHashingEngine)
    (input : Bytes), engine.salt ≠ [] → UsesSalt lib engine input := by
  intro h
  have hhash := (h knownCrypt { salt := bytes "$2a$10$VEVmGHy4F4XQMJ3eOZJAUe" } (bytes "hi,mom")
    (by decide)).hash
  have hcalls := hhash { urandom := .ok [], bcsalt := fun _ => 0, hash := fun _ => 0 }
    { urandom := .ok []
      bcsalt := fun i => (bytes "$2a$10$VEVmGHy4F4XQMJ3eOZJAUe").getD i 0
      hash := fun _ => 0 }
  revert hcalls
  decide

/-! ## Hashes -/

/-- A C string in an array, read as one. -/
theorem cString_read_write (buffer : Buffer) (stack : Nat → UInt8) {s : Bytes} (h : 0 ∉ s) :
    cString ((buffer.write (s ++ [0])).read stack) = s := by
  obtain ⟨rest, hread⟩ := Buffer.exists_read_write buffer stack (s ++ [0])
  rw [hread, List.append_assoc, List.singleton_append, cString_append h]

theorem take_read_write (buffer : Buffer) (stack : Nat → UInt8) (s : Bytes) :
    ((buffer.write (s ++ [0])).read stack).take s.length = s := by
  obtain ⟨rest, hread⟩ := Buffer.exists_read_write buffer stack (s ++ [0])
  rw [hread, List.append_assoc, List.take_left]

/-- Without a salt of the user, the array of the salt has a random one. -/
theorem prepare_eq_ok {lib : CryptBlowfish} (hlib : lib.Documented) {workFactor : Int}
    {urandom : Except UrandomFailure Bytes} {bcsalt hash : Buffer}
    (h : prepare lib { workFactor := workFactor } urandom = .ok (bcsalt, hash)) :
    ∃ setting, 0 ∉ setting ∧ setting.take 4 = bytes "$2a$" ∧
      bcsalt = Buffer.uninitialised.write (setting ++ [0]) := by
  rw [prepare, if_neg (not_not_intro rfl)] at h
  cases urandom with
  | error e => cases e <;> cases h
  | ok input =>
    simp only [bcrypt_gensalt] at h
    cases hsetting : lib.crypt_gensalt_rn (bytes "$2a$")
        (if workFactor < 4 ∨ 31 < workFactor then 12 else workFactor.toNat) input with
    | none =>
      rw [hsetting] at h
      cases h
    | some setting =>
      rw [hsetting] at h
      obtain ⟨hzero, hkind⟩ := hlib.gensalt hsetting
      cases h
      exact ⟨setting, hzero, hkind, rfl⟩

/-- A hash is what `crypt_blowfish` makes of the password up to its first zero byte. -/
theorem exists_crypt {lib : CryptBlowfish} (hlib : lib.Documented) {workFactor : Int}
    {s : Surroundings} {p h : Bytes}
    (hhash : generateHash lib { workFactor := workFactor } s p = .ok h) :
    0 ∉ h ∧ h.length = 60 ∧ h.take 4 = bytes "$2a$" ∧ lib.crypt_rn (cString p) h = some h := by
  obtain ⟨⟨bcsalt, hash⟩, hprepare, hrest⟩ := bind_eq_ok_iff.mp hhash
  obtain ⟨setting, hzero, hkind, rfl⟩ := prepare_eq_ok hlib hprepare
  simp only [cString_read_write _ _ hzero, bcrypt_hashpw] at hrest
  cases hcrypt : lib.crypt_rn (cString p) setting with
  | none =>
    simp only [hcrypt] at hrest
    cases hrest
  | some output =>
    obtain ⟨hzero', hlen, htake⟩ := hlib.hash hcrypt
    simp only [hcrypt, ne_eq, not_true_eq_false, if_false] at hrest
    have htaken := take_read_write hash s.hash output
    rw [hlen] at htaken
    obtain rfl : output = h := htaken.symm.trans (Except.ok.inj hrest)
    exact ⟨hzero', hlen, htake.trans hkind, hlib.reproduces hcrypt⟩

/-- A hash is verified with what has the same hash. -/
theorem verifyHash_iff {lib : CryptBlowfish} (hlib : lib.Documented) (s : Surroundings)
    {q h : Bytes} (hzero : 0 ∉ h) :
    verifyHash lib s q h = true ↔ lib.crypt_rn (cString q) h = some h := by
  rw [verifyHash, decide_eq_true_eq, cString_eq_self hzero, bcrypt_checkpw, bcrypt_hashpw]
  cases hcrypt : lib.crypt_rn (cString q) h with
  | none =>
    dsimp only
    rw [if_pos (by decide)]
    exact iff_of_false (by decide) (Option.some_ne_none h).symm
  | some output =>
    dsimp only
    rw [if_neg (not_not_intro rfl), cString_read_write _ _ (hlib.hash hcrypt).1,
      timing_safe_strcmp_eq_zero_iff, Option.some.injEq, eq_comm]

end BcryptHashingEngine

end Nawa.hashing

/-! ## Passwords -/

namespace Nawa.crypto

open hashing

/-- No two passwords that are compared have one hash, unless their first 72 bytes are the same. -/
def NoCollision (lib : CryptBlowfish) (p q : Bytes) : Prop :=
  ∀ setting output, lib.crypt_rn (cString p) setting = some output →
    lib.crypt_rn (cString q) setting = some output → (cString p).take 72 = (cString q).take 72

/-- What is asked for: a hash of `p` is verified with `p`, and with no other password. -/
structure Distinguishes (lib : Libraries) (s : Surroundings) (p q h : Bytes) : Prop where
  differs : q ≠ p → passwordVerify lib s q h getEngine = .ok false
  same : q = p → passwordVerify lib s q h getEngine = .ok true

theorem passwordVerify_bcrypt {lib : Libraries} (s : Surroundings) (q : Bytes) {h : Bytes}
    (hkind : h.take 4 = bytes "$2a$") :
    passwordVerify lib s q h getEngine =
      .ok (BcryptHashingEngine.verifyHash lib.cryptBlowfish s.bcrypt q h) := by
  have hne : h ≠ [] := by
    rintro rfl
    exact absurd hkind (by decide)
  have hengine : getEngine h = some (.bcrypt {}) := if_pos (.inl hkind)
  rw [passwordVerify, if_neg hne, hengine]
  rfl

/-- Different passwords are told apart that differ before their first zero byte. -/
theorem distinguishes_iff {lib : Libraries} (hlib : lib.cryptBlowfish.Documented) {p q : Bytes}
    (hp : p.length ≤ 72) (hq : q.length ≤ 72) (hcollision : NoCollision lib.cryptBlowfish p q)
    {workFactor : Int} {s : Surroundings} {h : Bytes}
    (hhash : passwordHash lib s p (.bcrypt { workFactor := workFactor }) = .ok h)
    (s' : Surroundings) :
    Distinguishes lib s' p q h ↔ q = p ∨ cString q ≠ cString p := by
  obtain ⟨hzero, -, hkind, hcrypt⟩ := BcryptHashingEngine.exists_crypt hlib hhash
  have hverify : ∀ b, passwordVerify lib s' q h getEngine = .ok b ↔
      BcryptHashingEngine.verifyHash lib.cryptBlowfish s'.bcrypt q h = b := by
    intro b
    rw [passwordVerify_bcrypt s' q hkind, Except.ok.injEq]
  have hiff := BcryptHashingEngine.verifyHash_iff hlib s'.bcrypt (q := q) hzero
  -- the C string decides what a password verifies
  have htrue : BcryptHashingEngine.verifyHash lib.cryptBlowfish s'.bcrypt q h = true ↔
      cString q = cString p := by
    rw [hiff]
    constructor
    · intro hcrypt'
      have htake := hcollision h h hcrypt hcrypt'
      rw [List.take_of_length_le (Nat.le_trans (length_cString_le p) hp),
        List.take_of_length_le (Nat.le_trans (length_cString_le q) hq)] at htake
      exact htake.symm
    · intro heq
      rw [heq, hcrypt]
  constructor
  · intro hdistinguishes
    by_cases heq : q = p
    · exact .inl heq
    · right
      intro hstrings
      have hfalse := (hverify false).mp (hdistinguishes.differs heq)
      rw [htrue.mpr hstrings] at hfalse
      cases hfalse
  · intro hcases
    refine ⟨fun hne => (hverify false).mpr ?_, fun heq => (hverify true).mpr ?_⟩
    · exact Bool.eq_false_iff.mpr fun h => (hcases.resolve_left hne) (htrue.mp h)
    · exact htrue.mpr (congrArg cString heq)

/-- Libraries that know some passwords. -/
def knownLibraries : Libraries where
  cryptBlowfish := knownCrypt
  argon2 := { hash_encoded := fun _ _ _ _ _ _ _ _ => .error 0, error_message := fun _ => [] }

/-- The random bytes for the known salt. -/
def knownSurroundings : Surroundings where
  bcrypt :=
    { urandom := .ok [92, 101, 232, 32, 157, 58, 31, 166, 82, 56, 190, 96, 65, 178, 194, 90]
      bcsalt := fun _ => 0
      hash := fun _ => 0 }
  randomDevice := { entropy := 32, draw := fun _ => 0 }

theorem noCollision_known (p q : Bytes) : NoCollision knownCrypt p q := by
  -- the last character tells the known hashes apart
  have hkey : ∀ {key setting output : Bytes}, knownCrypt.crypt_rn key setting = some output →
      key = if output.getLast? = some 75 then bytes "hi,mom"
        else if output.getLast? = some 71 then bytes "hi,dad" else bytes "hi" := by
    intro key setting output h
    simp only [knownCrypt] at h
    split at h
    · split at h
      · next hmom =>
        cases h
        exact hmom.trans (by decide)
      · split at h
        · next hdad =>
          cases h
          exact hdad.trans (by decide)
        · split at h
          · next hhi =>
            cases h
            exact hhi.trans (by decide)
          · cases h
    · cases h
  intro setting output h h'
  rw [hkey h, hkey h']

theorem distinguishes_mom_dad :
    Distinguishes knownLibraries knownSurroundings (bytes "hi,mom") (bytes "hi,dad")
      (bytes "$2a$10$VEVmGHy4F4XQMJ3eOZJAUeb.MedU0W10pTPCuf53eHdKJPiSE8sMK") := by
  have hhash : passwordHash knownLibraries knownSurroundings (bytes "hi,mom")
      (.bcrypt { workFactor := 10 }) =
        .ok (bytes "$2a$10$VEVmGHy4F4XQMJ3eOZJAUeb.MedU0W10pTPCuf53eHdKJPiSE8sMK") := by decide
  have hlength : (bytes "hi,mom").length ≤ 72 ∧ (bytes "hi,dad").length ≤ 72 := by decide
  have hdistinguishes := distinguishes_iff documented_knownCrypt hlength.1 hlength.2
    (noCollision_known _ _) hhash knownSurroundings
  exact hdistinguishes.mpr (.inr (by decide))

/-- A zero byte hides what stands behind it. -/
theorem not_distinguishes : ¬ ∀ (lib : Libraries), lib.cryptBlowfish.Documented →
    ∀ p q : Bytes, p.length ≤ 72 → q.length ≤ 72 → NoCollision lib.cryptBlowfish p q →
      ∀ (workFactor : Int) (s s' : Surroundings) (h : Bytes),
        passwordHash lib s p (.bcrypt { workFactor := workFactor }) = .ok h →
          Distinguishes lib s' p q h := by
  intro h
  have hdiffers := (h knownLibraries documented_knownCrypt
    (bytes "hi" ++ 0 :: bytes "mom") (bytes "hi" ++ 0 :: bytes "dad") (by decide) (by decide)
    (noCollision_known _ _) 10 knownSurroundings knownSurroundings
    (bytes "$2a$10$VEVmGHy4F4XQMJ3eOZJAUeD3q6jNkYRy/sSFAYmkha/RLpsPQUFJa")
    (by decide)).differs (by decide)
  revert hdiffers
  decide

end Nawa.crypto
