import BankVaults.Value
import Mathlib.Logic.Function.Basic

/-!
# Programs against the keystore and the Vault API

`vault.go` talks to two outside parties: the key store (`kv.Service`) and the
Vault server (`api.Client`). A `Prog` is a tree of their requests; each request
`r` continues with the answer, of type `Resp r`. A Go `error` returned up the
call chain is the leaf `fail`, a Go panic the leaf `panic`. The code's unbounded
loops take a `fuel` argument and end in `cut` when it runs out.

Only the fields of the API's records that the code reads or sets are kept.
-/

namespace BankVaults

/-! ## The API's records -/

structure SealStatusResponse where
  sealed : Bool
  progress : Int

structure InitRequest where
  secretShares : Int
  secretThreshold : Int

structure InitResponse where
  keys : List String
  rootToken : String

structure TokenCreateRequest where
  id : String
  policies : List String
  displayName : String
  noParent : Bool

structure AuthMount where
  type : String

structure EnableAuthOptions where
  type : String

structure MountInput where
  type : String
  description : String
  pluginName : String
  options : List (String × String)

structure MountConfigInput where
  options : List (String × String)

/-- A key store failure: `*kv.NotFoundError`, or any other. -/
inductive KvError where
  | notFound (msg : String)
  | backend (msg : String)

def KvError.error : KvError → String
  | .notFound msg => msg
  | .backend msg => msg

/-! ## Requests and answers -/

inductive Req where
  | kvGet (key : String)
  | kvSet (key val : String)
  | kvTest (key : String)
  | sealStatus
  | unseal (key : String)
  | initStatus
  | init (req : InitRequest)
  | setToken (token : String)
  | createOrphan (req : TokenCreateRequest)
  | revokeSelf (token : String)
  | listAuth
  | enableAuth (path : String) (options : EnableAuthOptions)
  | write (path : String) (data : GoMap)
  | putPolicy (name rules : String)
  | listMounts
  | mount (path : String) (input : MountInput)
  | tuneMount (path : String) (input : MountConfigInput)
  | readFile (name : String)
  | getenv (key : String)
  | sleep (ns : Nat)
  | range (n : Nat)

/-- The answer to each request. `listMounts` answers whether a key is listed; `range n`
answers the order in which a `range` visits the `n` entries of a map. -/
def Resp : Req → Type
  | .kvGet _ => Except KvError String
  | .kvSet _ _ => Except String Unit
  | .kvTest _ => Except String Unit
  | .sealStatus => Except String SealStatusResponse
  | .unseal _ => Except String SealStatusResponse
  | .initStatus => Except String Bool
  | .init _ => Except String InitResponse
  | .setToken _ => Unit
  | .createOrphan _ => Except String Unit
  | .revokeSelf _ => Except String Unit
  | .listAuth => Except String (String → Option AuthMount)
  | .enableAuth _ _ => Except String Unit
  | .write _ _ => Except String Unit
  | .putPolicy _ _ => Except String Unit
  | .listMounts => Except String (String → Bool)
  | .mount _ _ => Except String Unit
  | .tuneMount _ _ => Except String Unit
  | .readFile _ => Except String String
  | .getenv _ => String
  | .sleep _ => Unit
  | .range n => { l : List Nat // l.Perm (List.range n) }

def Event := (r : Req) × Resp r

/-! ## Programs -/

inductive Prog (α : Type) where
  | pure (a : α)
  | fail (err : String)
  | panic (msg : String)
  | cut
  | call (r : Req) (k : Resp r → Prog α)

namespace Prog

def bind : Prog α → (α → Prog β) → Prog β
  | .pure a, f => f a
  | .fail e, _ => .fail e
  | .panic m, _ => .panic m
  | .cut, _ => .cut
  | .call r k, f => .call r fun x => (k x).bind f

/-- Go's `if err != nil { return handler(err) }` around a call that returns an error. -/
def tryCatch : Prog α → (String → Prog α) → Prog α
  | .pure a, _ => .pure a
  | .fail e, h => h e
  | .panic m, _ => .panic m
  | .cut, _ => .cut
  | .call r k, h => .call r fun x => (k x).tryCatch h

/-- Go's `defer`: `q` runs after `p` on every exit, a returned error or a panic included. -/
def withDefer : Prog α → Prog Unit → Prog α
  | .pure a, q => q.bind fun _ => .pure a
  | .fail e, q => q.bind fun _ => .fail e
  | .panic m, q => q.bind fun _ => .panic m
  | .cut, _ => .cut
  | .call r k, q => .call r fun x => (k x).withDefer q

instance : Monad Prog where
  pure := .pure
  bind := .bind

instance : MonadExceptOf String Prog where
  throw := .fail
  tryCatch := .tryCatch

@[simp] theorem pure_eq (a : α) : (Pure.pure a : Prog α) = .pure a := rfl

@[simp] theorem bind_eq (p : Prog α) (f : α → Prog β) : p >>= f = p.bind f := rfl

@[simp] theorem throw_eq (e : String) : (throw e : Prog α) = .fail e := rfl

@[simp] theorem tryCatch_eq (p : Prog α) (h : String → Prog α) :
    (tryCatch p h : Prog α) = p.tryCatch h := rfl

@[simp] theorem pure_bind (a : α) (f : α → Prog β) : (Prog.pure a).bind f = f a := rfl

@[simp] theorem fail_bind (e : String) (f : α → Prog β) : (Prog.fail e).bind f = .fail e := rfl

@[simp] theorem panic_bind (m : String) (f : α → Prog β) : (Prog.panic m).bind f = .panic m := rfl

@[simp] theorem cut_bind (f : α → Prog β) : (Prog.cut).bind f = .cut := rfl

@[simp] theorem call_bind (r : Req) (k : Resp r → Prog α) (f : α → Prog β) :
    (Prog.call r k).bind f = .call r fun x => (k x).bind f := rfl

theorem bind_assoc (p : Prog α) (f : α → Prog β) (g : β → Prog γ) :
    (p.bind f).bind g = p.bind fun a => (f a).bind g := by
  induction p with
  | call r k ih => simp [ih]
  | _ => rfl

@[simp] theorem bind_pure (p : Prog α) : p.bind .pure = p := by
  induction p with
  | call r k ih => simp [ih]
  | _ => rfl

instance : LawfulMonad Prog :=
  LawfulMonad.mk' Prog (fun p => bind_pure p) (fun _ _ => rfl) bind_assoc

def request (r : Req) : Prog (Resp r) := .call r .pure

/-- Go's `x, err := call(); if err != nil { return wrap(err) }`. -/
def orError (p : Prog (Except ε α)) (wrap : ε → String) : Prog α := do
  match ← p with
  | .ok a => pure a
  | .error e => throw (wrap e)

end Prog

/-! ## The calls `vault.go` makes -/

def kvGet (key : String) : Prog (Except KvError String) := Prog.request (.kvGet key)
def kvSet (key val : String) : Prog (Except String Unit) := Prog.request (.kvSet key val)
def kvTest (key : String) : Prog (Except String Unit) := Prog.request (.kvTest key)
def sysSealStatus : Prog (Except String SealStatusResponse) := Prog.request .sealStatus
def sysUnseal (key : String) : Prog (Except String SealStatusResponse) :=
  Prog.request (.unseal key)
def sysInitStatus : Prog (Except String Bool) := Prog.request .initStatus
def sysInit (req : InitRequest) : Prog (Except String InitResponse) := Prog.request (.init req)
def setToken (token : String) : Prog Unit := Prog.request (.setToken token)
def tokenCreateOrphan (req : TokenCreateRequest) : Prog (Except String Unit) :=
  Prog.request (.createOrphan req)
def tokenRevokeSelf (token : String) : Prog (Except String Unit) :=
  Prog.request (.revokeSelf token)
def sysListAuth : Prog (Except String (String → Option AuthMount)) := Prog.request .listAuth
def sysEnableAuthWithOptions (path : String) (options : EnableAuthOptions) :
    Prog (Except String Unit) := Prog.request (.enableAuth path options)
def logicalWrite (path : String) (data : GoMap) : Prog (Except String Unit) :=
  Prog.request (.write path data)
def sysPutPolicy (name rules : String) : Prog (Except String Unit) :=
  Prog.request (.putPolicy name rules)
def sysListMounts : Prog (Except String (String → Bool)) := Prog.request .listMounts
def sysMount (path : String) (input : MountInput) : Prog (Except String Unit) :=
  Prog.request (.mount path input)
def sysTuneMount (path : String) (input : MountConfigInput) : Prog (Except String Unit) :=
  Prog.request (.tuneMount path input)
def readFile (name : String) : Prog (Except String String) := Prog.request (.readFile name)
def getenv (key : String) : Prog String := Prog.request (.getenv key)
def sleep (ns : Nat) : Prog Unit := Prog.request (.sleep ns)

/-- Go's `range` over a map: the entries in the order the runtime picks. -/
def iterate (m : List (String × β)) : Prog (List (String × β)) := do
  let order ← Prog.request (.range m.length)
  pure (order.1.filterMap fun i => m[i]?)

/-- A type assertion `v.(T)`: the value, or a panic. -/
def assert (v : Option α) : Prog α :=
  match v with
  | some a => pure a
  | none => .panic "interface conversion"

end BankVaults
