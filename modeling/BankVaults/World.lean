import BankVaults.Run

/-!
# A key store, a Vault server and their environment

The parties `vault.go` talks to, as one state machine `World.answer`. The key store
never fails: `Get` answers the stored value or `NotFound`. The server follows the
spec: `Init` hands out the shares it generates and stays sealed; each new valid share
advances the unseal progress, the `threshold`-th unseals it, an invalid or repeated
share resets the progress to 0. A mount made at `path` is listed under
`listKey path` (`path ++ "/"` for the paths Vault leaves as they are). Writes,
policies and tunes overwrite. The `order` of the environment answers each `range`.
-/

namespace BankVaults

structure Server where
  initialized : Bool
  sealed : Bool
  shares : List String
  threshold : Nat
  submitted : List String
  fresh : List String
  freshRoot : String
  listKey : String → String
  auths : String → Option String
  mounts : String → Option MountInput
  policies : String → Option String
  data : String → Option GoMap

structure Env where
  files : String → Option String
  vars : String → String
  order : Nat → (n : Nat) → { l : List Nat // l.Perm (List.range n) }

structure World where
  keys : String → Option String
  server : Server
  token : String
  env : Env
  ranges : Nat

namespace Server

/-- A server that has just started: uninitialized, sealed, nothing mounted. -/
def new (fresh : List String) (freshRoot : String) (listKey : String → String) : Server :=
  ⟨false, true, [], 0, [], fresh, freshRoot, listKey, fun _ => none, fun _ => none,
    fun _ => none, fun _ => none⟩

def unsealWith (s : Server) (key : String) : SealStatusResponse × Server :=
  if key ∈ s.shares ∧ key ∉ s.submitted then
    if s.threshold ≤ s.submitted.length + 1 then
      (⟨false, 0⟩, { s with sealed := false, submitted := [] })
    else
      (⟨true, s.submitted.length + 1⟩, { s with submitted := s.submitted ++ [key] })
  else
    (⟨true, 0⟩, { s with submitted := [] })

def initWith (s : Server) (req : InitRequest) : InitResponse × Server :=
  let keys := s.fresh.take req.secretShares.toNat
  (⟨keys, s.freshRoot⟩,
    { s with initialized := true, sealed := true, shares := keys,
             threshold := req.secretThreshold.toNat, submitted := [] })

end Server

namespace World

def withServer (w : World) (s : Server) : World := { w with server := s }

@[simp] theorem withServer_keys (w : World) (s : Server) : (w.withServer s).keys = w.keys := rfl

@[simp] theorem withServer_server (w : World) (s : Server) : (w.withServer s).server = s := rfl

def answer : (r : Req) → World → Resp r × World
  | .kvGet key, w =>
    (match w.keys key with
      | some v => .ok v
      | none => .error (.notFound s!"key '{key}' not found"), w)
  | .kvSet key val, w => (.ok (), { w with keys := Function.update w.keys key (some val) })
  | .kvTest _, w => (.ok (), w)
  | .sealStatus, w => (.ok ⟨w.server.sealed, w.server.submitted.length⟩, w)
  | .unseal key, w =>
    if w.server.initialized then
      if w.server.sealed then
        let (resp, s) := w.server.unsealWith key
        (.ok resp, w.withServer s)
      else (.ok ⟨false, 0⟩, w)
    else (.error "Vault is not initialized", w)
  | .initStatus, w => (.ok w.server.initialized, w)
  | .init req, w =>
    if w.server.initialized then (.error "Vault is already initialized", w)
    else
      let (resp, s) := w.server.initWith req
      (.ok resp, w.withServer s)
  | .setToken token, w => ((), { w with token := token })
  | .createOrphan _, w => (.ok (), w)
  | .revokeSelf _, w => (.ok (), w)
  | .listAuth, w => (.ok fun k => (w.server.auths k).map AuthMount.mk, w)
  | .enableAuth path options, w =>
    let key := w.server.listKey path
    if (w.server.auths key).isSome then (.error s!"path is already in use at {key}", w)
    else (.ok (), w.withServer
      { w.server with auths := Function.update w.server.auths key (some options.type) })
  | .write path data, w =>
    (.ok (), w.withServer { w.server with data := Function.update w.server.data path (some data) })
  | .putPolicy name rules, w =>
    (.ok (), w.withServer
      { w.server with policies := Function.update w.server.policies name (some rules) })
  | .listMounts, w => (.ok fun k => (w.server.mounts k).isSome, w)
  | .mount path input, w =>
    let key := w.server.listKey path
    if (w.server.mounts key).isSome then (.error s!"path is already in use at {key}", w)
    else (.ok (), w.withServer
      { w.server with mounts := Function.update w.server.mounts key (some input) })
  | .tuneMount path input, w =>
    let key := w.server.listKey path
    match w.server.mounts key with
    | some m =>
      let tuned : MountInput := { m with options := input.options }
      (.ok (), w.withServer
        { w.server with mounts := Function.update w.server.mounts key (some tuned) })
    | none => (.error s!"no mount at {key}", w)
  | .readFile name, w =>
    (match w.env.files name with
      | some content => .ok content
      | none => .error s!"open {name}: no such file or directory", w)
  | .getenv key, w => (w.env.vars key, w)
  | .sleep _, w => ((), w)
  | .range n, w => (w.env.order w.ranges n, { w with ranges := w.ranges + 1 })

theorem answer_kvGet (key : String) (w : World) :
    answer (.kvGet key) w =
      (match w.keys key with
        | some v => .ok v
        | none => .error (.notFound s!"key '{key}' not found"), w) := rfl

theorem answer_init_fresh {w : World} (hi : w.server.initialized = false) (req : InitRequest) :
    answer (.init req) w = (.ok (w.server.initWith req).1, w.withServer (w.server.initWith req).2) := by
  simp [answer, hi]

theorem answer_unseal_sealed {w : World} (hi : w.server.initialized = true)
    (hs : w.server.sealed = true) (key : String) :
    answer (.unseal key) w = (.ok (w.server.unsealWith key).1, w.withServer (w.server.unsealWith key).2) := by
  simp [answer, hi, hs]

theorem answer_keys (r : Req) (w : World) (hr : ∀ key val, r ≠ .kvSet key val) :
    (answer r w).2.keys = w.keys := by
  cases r <;> simp only [answer] <;> (try split) <;> (try split) <;> first | rfl | exact absurd rfl (hr _ _)

/-- `unsealWith` changes only whether the server is sealed and which shares were submitted. -/
theorem unsealWith_frame (s : Server) (key : String) :
    (s.unsealWith key).2 =
      { s with sealed := (s.unsealWith key).2.sealed, submitted := (s.unsealWith key).2.submitted } := by
  unfold Server.unsealWith
  split_ifs <;> rfl

theorem answer_initialized (r : Req) {w : World} (hi : w.server.initialized = true) :
    (answer r w).2.server.initialized = true := by
  cases r <;> simp only [answer, hi] <;> (try split) <;> (try split) <;>
    (simp only [withServer_server, Server.initWith]; try rw [unsealWith_frame]) <;> exact hi

theorem answer_policies (r : Req) (hr : ∀ name rules, r ≠ .putPolicy name rules) (w : World) :
    (answer r w).2.server.policies = w.server.policies := by
  cases r <;> simp only [answer] <;> (try split) <;> (try split) <;>
    (try simp only [withServer_server, Server.initWith]) <;> (try rw [unsealWith_frame])
  exact absurd rfl (hr _ _)

theorem answer_listKey (r : Req) (w : World) : (answer r w).2.server.listKey = w.server.listKey := by
  cases r <;> simp only [answer] <;> (try split) <;> (try split) <;>
    (simp only [withServer_server, Server.initWith]; try rw [unsealWith_frame])

theorem answer_auths_mono (r : Req) {w : World} {k t : String} (hk : w.server.auths k = some t) :
    (answer r w).2.server.auths k = some t := by
  cases r <;> simp only [answer] <;> (try split) <;> (try split) <;>
    (try simp only [withServer_server]) <;> (try rw [unsealWith_frame]) <;> first | exact hk | skip
  rename_i h
  rw [Function.update_noteq fun he => by simp [he ▸ hk] at h]
  exact hk

theorem answer_mounts_mono (r : Req) {w : World} {k : String} (hk : (w.server.mounts k).isSome) :
    ((answer r w).2.server.mounts k).isSome := by
  cases r <;> simp only [answer] <;> (try split) <;> (try split) <;>
    (try simp only [withServer_server]) <;> (try rw [unsealWith_frame]) <;> first | exact hk | skip
  all_goals
    rw [Function.update_apply]
    split_ifs <;> simp_all

end World

end BankVaults
