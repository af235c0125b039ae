import BankVaults.InitSound

/-!
# Several `Init` runs at once

Any number of `Init` runs, each with its own configuration, share one key store and one
server and take steps in any order. The key store's `Get` and `Set` are separate steps,
so another run may act between a run's check and its write. Because `Init` writes only
after its server `Init` succeeded, and that succeeds for one run only, no run ever writes
over a stored share or root token.
-/

namespace BankVaults

open Vault

/-! ## Programs side by side -/

/-- Programs running side by side against one world; `log` records which program made
each request and the answer it got. -/
structure Sys (W : Type) where
  world : W
  progs : List (Prog Unit)
  log : List (Nat × Event)

def Prog.nextReq : Prog α → Option Req
  | .call r _ => some r
  | _ => none

section
variable {W : Type} (h : (r : Req) → W → Resp r × W)

def Sys.step (s : Sys W) (i : Nat) : Sys W :=
  match s.progs[i]? with
  | some (.call r k) =>
    ⟨(h r s.world).2, s.progs.set i (k (h r s.world).1), s.log ++ [(i, ⟨r, (h r s.world).1⟩)]⟩
  | _ => s

/-- The programs take turns in the order `sched` names them. -/
def Sys.interleave : List Nat → Sys W → Sys W
  | [], s => s
  | i :: sched, s => Sys.interleave sched (s.step h i)

end

def Sys.nextReq {W : Type} (s : Sys W) (i : Nat) : Option Req := s.progs[i]?.bind Prog.nextReq

def Sys.inits {W : Type} (runs : List (Vault × Nat)) (w : W) : Sys W :=
  ⟨w, runs.map fun r => r.1.init r.2, []⟩

/-! ## What each run has seen -/

def Event.initOk : Event → Bool
  | ⟨.init _, .ok _⟩ => true
  | _ => false

def Event.missing : Event → Option String
  | ⟨.kvGet key, .error (.notFound _)⟩ => some key
  | _ => none

def setNext (m : Bool × Option String) (e : Event) : Bool × Option String := (m.1 || e.initOk, e.missing)

/-- A run may `Set` a name only once its server `Init` succeeded, right after its own `Get`
of that name found nothing. -/
def setOk : Bool × Option String → Req → Prop
  | m, .kvSet key _ => m = (true, some key)
  | _, _ => True

def monOf (i : Nat) (log : List (Nat × Event)) : Bool × Option String :=
  log.foldl (fun m e => if e.1 = i then setNext m e.2 else m) (false, none)

def InitSucceeded (i : Nat) (log : List (Nat × Event)) : Prop := ∃ e ∈ log, e.1 = i ∧ e.2.initOk

/-- A key store inside the world `W` that answers `Get` from what it holds and changes
only on `Set`, beside a server whose `Init` succeeds at most once: it fails on an
initialized server, and a server stays initialized. -/
structure SharedStore (W : Type) (h : (r : Req) → W → Resp r × W) where
  keys : W → String → Option String
  initialized : W → Prop
  get_notFound : ∀ key w msg, (h (.kvGet key) w).1 = .error (.notFound msg) → keys w key = none
  keys_frame : ∀ r w, (∀ key val, r ≠ .kvSet key val) → keys (h r w).2 = keys w
  initialized_mono : ∀ r w, initialized w → initialized (h r w).2
  init_ok : ∀ req w resp, (h (.init req) w).1 = .ok resp → ¬ initialized w ∧ initialized (h (.init req) w).2

/-! ## One `Init` run -/

theorem SharedStore.missing {W : Type} {h : (r : Req) → W → Resp r × W} (A : SharedStore W h)
    {r : Req} {w : W} {key : String} (he : Event.missing ⟨r, (h r w).1⟩ = some key) :
    r = .kvGet key ∧ A.keys w key = none := by
  cases r with
  | kvGet key' =>
    generalize hx : (h (.kvGet key') w).1 = x at he
    change Except KvError String at x
    rcases x with (msg | _) | _ <;> simp [Event.missing] at he
    subst he
    exact ⟨rfl, A.get_notFound _ _ _ hx⟩
  | _ => simp [Event.missing] at he

theorem SharedStore.initOk {W : Type} {h : (r : Req) → W → Resp r × W} (A : SharedStore W h)
    {r : Req} {w : W} (he : Event.initOk ⟨r, (h r w).1⟩ = true) :
    ¬ A.initialized w ∧ A.initialized (h r w).2 := by
  cases r with
  | init req =>
    generalize hx : (h (.init req) w).1 = x at he
    change Except String InitResponse at x
    rcases x with _ | resp <;> simp [Event.initOk] at he
    exact A.init_ok req w resp hx
  | _ => simp [Event.initOk] at he

theorem monOf_snoc (i j : Nat) (log : List (Nat × Event)) (e : Event) :
    monOf i (log ++ [(j, e)]) = if j = i then setNext (monOf i log) e else monOf i log := by
  simp [monOf, List.foldl_append]

theorem monOf_snoc_fst (i j : Nat) (log : List (Nat × Event)) (e : Event) :
    (monOf i (log ++ [(j, e)])).1 = ((monOf i log).1 || (decide (j = i) && e.initOk)) := by
  rw [monOf_snoc]
  by_cases hji : j = i <;> simp [hji, setNext]

theorem foldl_view_fst (i : Nat) : ∀ (log : List (Nat × Event)) (m : Bool × Option String),
    (log.foldl (fun m e => if e.1 = i then setNext m e.2 else m) m).1 = true ↔
      m.1 = true ∨ InitSucceeded i log
  | [], m => by simp [InitSucceeded]
  | e :: log, m => by
    rw [List.foldl_cons, foldl_view_fst i log]
    by_cases he : e.1 = i <;> simp [he, setNext, InitSucceeded, or_assoc]

theorem monOf_fst {i : Nat} {log : List (Nat × Event)} : (monOf i log).1 = true ↔ InitSucceeded i log := by
  simp [monOf, foldl_view_fst]

theorem setOk_of_ne {r : Req} (hr : ∀ key val, r ≠ .kvSet key val) (m : Bool × Option String) : setOk m r := by
  cases r <;> first | trivial | exact absurd rfl (hr _ _)

theorem initOk_of_ne {r : Req} (hr : ∀ req, r ≠ .init req) (x : Resp r) : Event.initOk ⟨r, x⟩ = false := by
  cases r <;> first | rfl | exact absurd rfl (hr _)

theorem set_frame {P : Req → Prop}
    (hP : ∀ r, P r → (∀ key val, r ≠ .kvSet key val) ∧ ∀ req, r ≠ .init req) {p : Prog α}
    (hp : p.OnlyIssues P) (m : Bool × Option String) :
    p.Always setOk setNext (fun _ m' => m'.1 = m.1) m :=
  hp.always (fun m _ hr _ => setOk_of_ne (hP _ hr).1 m)
    (fun _ _ x hr hm => by simp [setNext, initOk_of_ne (hP _ hr).2 x, hm]) rfl

theorem keyStoreSet_setOk (key val : String) {m : Bool × Option String} (hm : m.1 = true) :
    (keyStoreSet key val).Always setOk setNext (fun _ m' => m'.1 = true) m := by
  refine ⟨trivial, fun (x : Except KvError String) => ?_⟩
  rcases x with (msg | msg) | _
  · refine ⟨by simp [setOk, setNext, Event.missing, hm], fun (y : Except String Unit) => ?_⟩
    rcases y with _ | _
    · trivial
    · simp [Prog.Always, setNext, hm]
  all_goals trivial

theorem storeUnsealKeys_setOk (keys : List String) {m : Bool × Option String} (hm : m.1 = true) :
    (storeUnsealKeys keys).Always setOk setNext (fun _ m' => m'.1 = true) m :=
  Prog.Always.forM (fun _ _ _ hm => Prog.Always.tryCatch_fail (keyStoreSet_setOk _ _ hm)) hm

theorem init_setOk (v : Vault) (fuel : Nat) (m : Bool × Option String) :
    (v.init fuel).Always setOk setNext (fun _ _ => True) m := by
  unfold Vault.init
  refine Prog.Always.bind ((set_frame (by rintro r rfl; simp) ((Prog.onlyIssues_request_self _).orError _) m).mono
    fun initialized m1 _ => ?_)
  cases initialized
  case true => trivial
  simp only [Bool.false_eq_true, ite_false, Prog.bind_eq, Prog.pure_eq, Prog.pure_bind]
  refine Prog.Always.bind ((set_frame (by rintro r rfl; simp) ((Prog.onlyIssues_request_self _).orError _) m1).mono
    fun _ m2 _ => ?_)
  refine Prog.Always.bind ((set_frame (by rintro r ⟨key, -, rfl⟩; simp) (checkKeys_issues _) m2).mono
    fun _ m3 _ => ?_)
  refine Prog.Always.bind (Prog.Always.orError (Prog.Always.request trivial fun x => ?_) _)
  rintro resp rfl
  have hm : (setNext m3 ⟨.init ⟨v.config.secretShares, v.config.secretThreshold⟩, .ok resp⟩).1 = true := by
    simp [setNext, Event.initOk]
  refine Prog.Always.bind ((storeUnsealKeys_setOk _ hm).mono fun _ m4 hm4 => ?_)
  have store : ∀ m' : Bool × Option String, m'.1 = true → ∀ y : String,
      (if v.config.storeRootToken = true then
        tryCatch (keyStoreSet rootTokenKey resp.rootToken) fun _ => (throw y : Prog Unit)
        else Prog.pure PUnit.unit).Always setOk setNext (fun _ _ => True) m' := by
    intro m' hm' y
    split
    · exact Prog.Always.tryCatch_fail ((keyStoreSet_setOk _ _ hm').mono fun _ _ _ => trivial)
    · trivial
  split
  · refine Prog.Always.bind ((set_frame ?_ (setupInitRootToken_issues _ _ _) m4).mono fun _ m5 hm5 => ?_)
    · rintro r (rfl | rfl | rfl | ⟨req, rfl⟩ | rfl) <;> simp
    exact store m5 (hm5.trans hm4) _
  · exact store m4 hm4 _

/-! ## The invariant of interleaved runs -/

section
variable {W : Type} {h : (r : Req) → W → Resp r × W} (A : SharedStore W h)

/-- What holds in every state of interleaved runs: each program keeps to `setOk` from its
view, at most one run has seen its server `Init` succeed, and the name a `Set` is about
to write holds nothing. -/
structure SetsSafe (s : Sys W) : Prop where
  always : ∀ i (p : Prog Unit), s.progs[i]? = some p → p.Always setOk setNext (fun _ _ => True) (monOf i s.log)
  unique : ∀ i j, (monOf i s.log).1 = true → (monOf j s.log).1 = true → i = j
  initialized : ∀ i, (monOf i s.log).1 = true → A.initialized s.world
  missing : ∀ i key, monOf i s.log = (true, some key) → A.keys s.world key = none

variable {A}

theorem SetsSafe.step {s : Sys W} (hs : SetsSafe A s) (i : Nat) : SetsSafe A (s.step h i) := by
  unfold Sys.step
  split
  next r k hp =>
    have hA := hs.always i _ hp
    have hi : i < s.progs.length := (List.getElem?_eq_some_iff.mp hp).1
    have hflags : (∀ a b, (monOf a (s.log ++ [(i, ⟨r, (h r s.world).1⟩)])).1 = true →
          (monOf b (s.log ++ [(i, ⟨r, (h r s.world).1⟩)])).1 = true → a = b) ∧
        ∀ a, (monOf a (s.log ++ [(i, ⟨r, (h r s.world).1⟩)])).1 = true → A.initialized (h r s.world).2 := by
      cases hok : Event.initOk ⟨r, (h r s.world).1⟩
      · simp only [monOf_snoc_fst, hok, Bool.and_false, Bool.or_false]
        exact ⟨hs.unique, fun a ha => A.initialized_mono r s.world (hs.initialized a ha)⟩
      · obtain ⟨hnot, hinit⟩ := A.initOk hok
        have hnone : ∀ j, (monOf j s.log).1 = false := fun j => by
          cases hj : (monOf j s.log).1
          · rfl
          · exact absurd (hs.initialized j hj) hnot
        simp only [monOf_snoc_fst, hok, hnone, Bool.and_true, Bool.false_or, decide_eq_true_eq]
        exact ⟨fun a b ha hb => ha.symm.trans hb, fun _ _ => hinit⟩
    refine ⟨fun j p hj => ?_, hflags.1, hflags.2, fun j key hj => ?_⟩
    · rw [monOf_snoc]
      by_cases hij : i = j
      · subst hij
        rw [List.getElem?_set_self hi] at hj
        cases hj
        simpa using hA.2 _
      · rw [List.getElem?_set_ne hij] at hj
        simpa [hij] using hs.always j p hj
    · rw [monOf_snoc] at hj
      by_cases hij : i = j
      · subst hij
        simp only [if_true, setNext, Prod.mk.injEq] at hj
        obtain ⟨rfl, hkey⟩ := A.missing hj.2
        exact (congrFun (A.keys_frame _ _ (by simp)) key).trans hkey
      · simp only [hij, if_false] at hj
        by_cases hset : ∃ key' val, r = .kvSet key' val
        · obtain ⟨key', val, rfl⟩ := hset
          have hm : monOf i s.log = (true, some key') := hA.1
          exact absurd (hs.unique i j (by simp [hm]) (by simp [hj])) hij
        · simp only [not_exists] at hset
          exact (congrFun (A.keys_frame _ _ hset) key).trans (hs.missing j key hj)
  next => exact hs

theorem SetsSafe.interleave : ∀ (sched : List Nat) {s : Sys W}, SetsSafe A s →
    SetsSafe A (s.interleave h sched)
  | [], _, hs => hs
  | i :: sched, _, hs => SetsSafe.interleave sched (hs.step i)

theorem SetsSafe.inits (runs : List (Vault × Nat)) (w : W) : SetsSafe A (Sys.inits runs w) where
  always i p hp := by
    simp only [Sys.inits, List.getElem?_map, Option.map_eq_some'] at hp
    obtain ⟨r, -, rfl⟩ := hp
    exact init_setOk r.1 r.2 _
  unique i _ hi := by simp [monOf, Sys.inits] at hi
  initialized i hi := by simp [monOf, Sys.inits] at hi
  missing i _ hi := by simp [monOf, Sys.inits] at hi

end

/-! ## Every interleaving -/

/-- In any interleaving of `Init` runs against one key store and a server whose `Init`
succeeds at most once, a run about to `Set` a name is the one run whose server `Init`
succeeded, and the name holds no value: no share or root token is overwritten. -/
theorem init_sets_only_fresh {W : Type} {h : (r : Req) → W → Resp r × W} (A : SharedStore W h)
    (runs : List (Vault × Nat)) (w : W) (sched : List Nat) (i : Nat) (key val : String)
    (hset : ((Sys.inits runs w).interleave h sched).nextReq i = some (.kvSet key val)) :
    (∀ j, InitSucceeded j ((Sys.inits runs w).interleave h sched).log ↔ j = i) ∧
      A.keys ((Sys.inits runs w).interleave h sched).world key = none := by
  have hs := (SetsSafe.inits (A := A) runs w).interleave sched
  obtain ⟨p, hp, hnext⟩ := Option.bind_eq_some.mp hset
  cases p with
  | call r k =>
    simp only [Prog.nextReq, Option.some.injEq] at hnext
    subst hnext
    have hm : monOf i ((Sys.inits runs w).interleave h sched).log = (true, some key) :=
      (hs.always i _ hp).1
    exact ⟨fun j => ⟨fun hj => hs.unique j i (monOf_fst.mpr hj) (by simp [hm]),
      fun hj => hj ▸ monOf_fst.mp (by simp [hm])⟩, hs.missing i key hm⟩
  | _ => simp [Prog.nextReq] at hnext

def worldStore : SharedStore World World.answer where
  keys w := w.keys
  initialized w := w.server.initialized = true
  get_notFound key w msg hget := by
    rw [World.answer_kvGet] at hget
    cases hk : w.keys key <;> simp [hk] at hget ⊢
  keys_frame := World.answer_keys
  initialized_mono r _ := World.answer_initialized r
  init_ok req w resp hinit := by
    cases hi : w.server.initialized
    · exact ⟨by simp [hi], by simp [World.answer_init_fresh hi, Server.initWith]⟩
    · simp [World.answer, hi] at hinit

theorem init_sets_only_fresh_two_runs :
    (∀ j, InitSucceeded j ((Sys.inits [(plainVault, 0), (plainVault, 0)] freshWorld).interleave
        World.answer [1, 0, 1, 0, 0, 0, 0, 0, 0, 0, 0, 0, 0]).log ↔ j = 0) ∧
      worldStore.keys ((Sys.inits [(plainVault, 0), (plainVault, 0)] freshWorld).interleave
        World.answer [1, 0, 1, 0, 0, 0, 0, 0, 0, 0, 0, 0, 0]).world (unsealKeyForID 0) = none :=
  init_sets_only_fresh worldStore _ _ _ 0 _ "s0" rfl

end BankVaults
