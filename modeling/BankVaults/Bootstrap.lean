import BankVaults.Names
import BankVaults.Run

/-!
# `vault.go`: construction, unsealing and initialization

`New`, `Sealed`, `Unseal`, `keyStoreNotFound`, `keyStoreSet` and `Init`, line by
line. A `Vault` exists only for a configuration `New` accepts, so the threshold
bound travels with it. Logging and `runtime.GC()` are left out.
-/

namespace BankVaults

structure Config where
  secretShares : Int
  secretThreshold : Int
  initRootToken : String
  storeRootToken : Bool

structure Vault where
  config : Config
  threshold_le : config.secretThreshold ≤ config.secretShares

def new (config : Config) : Except String Vault :=
  if h : config.secretShares < config.secretThreshold then
    .error "the secret threshold can't be bigger than the shares"
  else
    .ok ⟨config, by omega⟩

namespace Vault

def sealed : Prog (Bool × Option String) := do
  match ← sysSealStatus with
  | .error err => return (false, some s!"error checking status: {err}")
  | .ok resp => return (resp.sealed, none)

/-- The loop of `Unseal` at index `i`, with `fuel` rounds left. -/
def unsealFrom : Nat → Nat → Prog Unit
  | 0, _ => .cut
  | fuel + 1, i => do
    let keyID := unsealKeyForID i
    let k ← (kvGet keyID).orError fun err => s!"unable to get key '{keyID}': {err.error}"
    let resp ← (sysUnseal k).orError fun err => s!"fail to send unseal request to vault: {err}"
    if !resp.sealed then
      return ()
    -- if progress is 0, we failed to unseal vault.
    if resp.progress == 0 then
      throw "failed to unseal vault. progress reset to 0"
    unsealFrom fuel (i + 1)

end Vault

def Vault.unseal (fuel : Nat) : Prog Unit := Vault.unsealFrom fuel 0

namespace Vault

def keyStoreNotFound (key : String) : Prog (Bool × Option String) := do
  match ← kvGet key with
  | .error (.notFound _) => return (true, none)
  | .error err => return (false, some err.error)
  | .ok _ => return (false, none)

def keyStoreSet (key val : String) : Prog Unit := do
  let (notFound, err) ← keyStoreNotFound key
  if notFound then
    (kvSet key val).orError id
  else
    match err with
    | none => throw s!"error setting key '{key}': it already exists"
    | some err => throw s!"error setting key '{key}': {err}"

/-- The names `Init` tests: `vault-root`, then `vault-unseal-i` while `i <= SecretShares`. -/
def initKeys (v : Vault) : List String :=
  rootTokenKey :: (List.range (v.config.secretShares + 1).toNat).map fun (i : Nat) => unsealKeyForID i

/-- One round of the loop `test every key` of `Init`. -/
def checkKey (key : String) : Prog Unit := do
  let (notFound, err) ← keyStoreNotFound key
  match notFound, err with
  | true, some err => throw s!"error before init: checking key '{key}' failed: {err}"
  | false, none => throw s!"error before init: keystore value for '{key}' already exists"
  | _, _ => pure ()

def checkKeys (keys : List String) : Prog Unit := keys.forM checkKey

/-- One round of the loop of `Init` over `resp.Keys`. -/
def storeUnsealKey : Nat × String → Prog Unit
  | (i, k) => do
    let keyID := unsealKeyForID i
    try keyStoreSet keyID k
    catch err => throw s!"error storing unseal key '{keyID}': {err}"

def storeUnsealKeys (keys : List String) : Prog Unit := keys.enum.forM storeUnsealKey

/-- `time.Second * 2`, in nanoseconds. -/
def wait : Nat := 2 * 1000000000

/-- The polling loop of `Init` before it installs `InitRootToken`. -/
def waitUnsealed : Nat → Prog Unit
  | 0 => .cut
  | fuel + 1 => do
    let (sealed, _) ← Vault.sealed
    if !sealed then
      return ()
    sleep wait
    waitUnsealed fuel

/-- The block of `Init` that replaces the generated root token by `InitRootToken`. -/
def setupInitRootToken (v : Vault) (fuel : Nat) (resp : InitResponse) : Prog String := do
  waitUnsealed fuel
  -- use temporary token
  setToken resp.rootToken
  -- setup root token with provided key
  let req : TokenCreateRequest :=
    { id := v.config.initRootToken, policies := ["root"], displayName := "root-token"
      noParent := true }
  let temporary := resp.rootToken
  (tokenCreateOrphan req).orError fun err =>
    s!"unable to setup requested root token, (temporary root token: '{temporary}'): {err}"
  -- revoke the temporary token
  (tokenRevokeSelf resp.rootToken).orError fun err =>
    s!"unable to revoke temporary root token: {err}"
  return v.config.initRootToken

def init (v : Vault) (fuel : Nat) : Prog Unit := do
  let initialized ← sysInitStatus.orError fun err =>
    s!"error testing if vault is initialized: {err}"
  if initialized then
    return ()
  -- test backend first
  (kvTest testKey).orError fun err => s!"error testing keystore before init: {err}"
  -- test for an existing keys
  checkKeys v.initKeys
  let resp ← (sysInit ⟨v.config.secretShares, v.config.secretThreshold⟩).orError fun err =>
    s!"error initializing vault: {err}"
  storeUnsealKeys resp.keys
  let rootToken ← if v.config.initRootToken != "" then v.setupInitRootToken fuel resp
    else pure resp.rootToken
  if v.config.storeRootToken then
    let rootTokenKey := rootTokenKey
    try keyStoreSet rootTokenKey resp.rootToken
    catch _ => throw s!"error storing root token '{rootToken}' in key'{rootTokenKey}'"

/-! ## What each step may ask -/

def notFoundOf : Except KvError String → Bool × Option String
  | .error (.notFound _) => (true, none)
  | .error err => (false, some err.error)
  | .ok _ => (false, none)

section
variable {W : Type} {h : (r : Req) → W → Resp r × W}

theorem run_keyStoreNotFound (key : String) (w : W) :
    (keyStoreNotFound key).run h w =
      ⟨.ok (notFoundOf (h (.kvGet key) w).1), (h (.kvGet key) w).2, [.kvGet key]⟩ := by
  simp only [keyStoreNotFound, kvGet, Prog.request, Prog.bind_eq, Prog.call_bind, Prog.pure_bind,
    Prog.run_call]
  rcases (h (.kvGet key) w).1 with (_ | _) | _ <;> rfl

theorem run_checkKey (key : String) (w : W) :
    (checkKey key).run h w =
      ⟨match (h (.kvGet key) w).1 with
        | .ok _ => .error s!"error before init: keystore value for '{key}' already exists"
        | .error _ => .ok (), (h (.kvGet key) w).2, [.kvGet key]⟩ := by
  simp only [checkKey, Prog.bind_eq, Prog.run_bind, run_keyStoreNotFound]
  rcases (h (.kvGet key) w).1 with (_ | _) | _ <;> rfl

end

theorem keyStoreSet_issues (key val : String) :
    (keyStoreSet key val).OnlyIssues fun r => r = .kvGet key ∨ r = .kvSet key val := by
  refine And.intro (.inl rfl) fun (x : Except KvError String) => ?_
  rcases x with (_ | _) | _
  · exact And.intro (.inr rfl) fun (x : Except String Unit) => by cases x <;> trivial
  all_goals trivial

theorem checkKeys_issues (keys : List String) :
    (checkKeys keys).OnlyIssues fun r => ∃ key ∈ keys, r = .kvGet key := by
  refine Prog.OnlyIssues.forM fun key hk => And.intro ⟨key, hk, rfl⟩ fun (x : Except KvError String) => ?_
  rcases x with (_ | _) | _ <;> trivial

theorem storeUnsealKeys_issues (keys : List String) :
    (storeUnsealKeys keys).OnlyIssues fun r => ∃ i k, (i, k) ∈ keys.enum ∧
      (r = .kvGet (unsealKeyForID i) ∨ r = .kvSet (unsealKeyForID i) k) :=
  Prog.OnlyIssues.forM fun ⟨i, k⟩ hik => by
    refine Prog.OnlyIssues.tryCatch (fun _ => ?_) ((keyStoreSet_issues _ _).mono fun _ h => ⟨i, k, hik, h⟩)
    trivial

theorem waitUnsealed_issues (fuel : Nat) :
    (waitUnsealed fuel).OnlyIssues fun r => r = .sealStatus ∨ r = .sleep wait := by
  induction fuel with
  | zero => trivial
  | succ fuel ih =>
    refine And.intro (.inl rfl) fun (x : Except String SealStatusResponse) => ?_
    rcases x with _ | ⟨_ | _, _⟩
    all_goals first | trivial | exact And.intro (.inr rfl) fun _ => ih

theorem setupInitRootToken_issues (v : Vault) (fuel : Nat) (resp : InitResponse) :
    (v.setupInitRootToken fuel resp).OnlyIssues fun r => r = .sealStatus ∨ r = .sleep wait ∨
      r = .setToken resp.rootToken ∨ (∃ req, r = .createOrphan req) ∨
      r = .revokeSelf resp.rootToken := by
  refine ((waitUnsealed_issues fuel).mono fun _ h => ?_).bind fun _ => ?_
  · rcases h with h | h <;> simp [h]
  refine And.intro (by simp) fun _ => And.intro (by simp) fun x => ?_
  rcases x with _ | _
  · trivial
  · exact And.intro (by simp) fun x => by rcases x with _ | _ <;> trivial

end Vault

end BankVaults
