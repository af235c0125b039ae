import BankVaults.MapOrder

/-!
# The configuration writes of the secret engines

`configureSecretEngines` writes every entry of every configuration category of every
engine. A write the server refuses stops the phase with an error, unless the error is an
overwrite refusal (`isOverwriteProbihitedError`): that write is skipped. `InTurn` is this
rule for a list of writes, and `UpToFatal` what it means for the writes made and the
outcome. On entries that follow the schema, beside a server that accepts the mount
requests, the phase follows the rule for the entries in the order its map ranges visit
them (`VisitsAll`). An entry whose categories came from JSON stops it on a type assertion.
-/

namespace BankVaults

open Vault

/-! ## Writes in turn, up to the first fatal one -/

/-- A write answer that stops the phase: an error that is not an overwrite refusal. -/
def fatal : Except String Unit → Bool
  | .error err => !isOverwriteProbihitedError err
  | .ok _ => false

def writesOf (evs : List Event) : List ((String × GoMap) × Except String Unit) :=
  evs.filterMap fun e => match e with
    | ⟨.write path data, a⟩ => some ((path, data), a)
    | _ => none

/-- `wr` are the writes of `ws` in turn, with their answers, and `o` the outcome, of a run
that stops with an error after the first fatal answer and succeeds after the last write. -/
def InTurn : List (String × GoMap) → List ((String × GoMap) × Except String Unit) → Outcome α → Prop
  | [], [], o => ∃ a, o = .ok a
  | x :: ws, (y, a) :: wr, o => y = x ∧ if fatal a then wr = [] ∧ ∃ err, o = .error err else InTurn ws wr o
  | _, _, _ => False

/-- What a run that is to make the writes `ws` did, by the writes `wr` it made with their
answers and its outcome `o`: it made the first writes of `ws`, in turn; only the last answer
can be fatal; it succeeded exactly when none was, and then it made all of `ws`; otherwise it
returned an error. -/
structure UpToFatal (ws : List (String × GoMap)) (wr : List ((String × GoMap) × Except String Unit))
    (o : Outcome Unit) : Prop where
  in_order : wr.map Prod.fst <+: ws
  fatal_last : ∀ x ∈ wr.dropLast, fatal x.2 = false
  ok_iff : o = .ok () ↔ ∀ x ∈ wr, fatal x.2 = false
  all_written : (∀ x ∈ wr, fatal x.2 = false) → wr.map Prod.fst = ws
  returns : o = .ok () ∨ ∃ err, o = .error err

namespace InTurn

theorem returns : ∀ {ws wr} {o : Outcome α}, InTurn ws wr o → (∃ a, o = .ok a) ∨ ∃ err, o = .error err
  | [], [], _, h => .inl h
  | _ :: _, (_, a) :: _, _, ⟨_, h⟩ => by
    split at h
    · exact .inr h.2
    · exact returns h

theorem append_ok {ws₂ wr₂} {o : Outcome β} (h₂ : InTurn ws₂ wr₂ o) :
    ∀ {ws₁ wr₁} {a : α}, InTurn ws₁ wr₁ (.ok a) → InTurn (ws₁ ++ ws₂) (wr₁ ++ wr₂) o
  | [], [], _, _ => h₂
  | _ :: _, (_, b) :: _, _, ⟨hy, h⟩ => by
    refine ⟨hy, ?_⟩
    split at h
    · exact absurd h.2 (by rintro ⟨_, ⟨⟩⟩)
    · rw [if_neg ‹_›]
      exact append_ok h₂ h

theorem append_error {ws₂ : List (String × GoMap)} :
    ∀ {ws₁ wr₁} {e : String}, InTurn ws₁ wr₁ (.error e : Outcome α) →
      InTurn (ws₁ ++ ws₂) wr₁ (.error e : Outcome β)
  | [], [], _, ⟨_, h⟩ => nomatch h
  | _ :: _, (_, b) :: _, _, ⟨hy, h⟩ => by
    refine ⟨hy, ?_⟩
    split at h
    · rw [if_pos ‹_›]
      exact ⟨h.1, _, rfl⟩
    · rw [if_neg ‹_›]
      exact append_error h

theorem upToFatal : ∀ {ws wr} {o : Outcome Unit}, InTurn ws wr o → UpToFatal ws wr o
  | [], [], _, ⟨(), rfl⟩ => ⟨List.prefix_refl _, nofun, by simp, fun _ => rfl, .inl rfl⟩
  | x :: ws, (y, a) :: wr, o, ⟨hy, h⟩ => by
    subst hy
    split at h
    next hf =>
      obtain ⟨rfl, err, rfl⟩ := h
      exact ⟨⟨ws, rfl⟩, nofun, by simp [hf], fun h => absurd (h _ (.head _)) (by simp [hf]), .inr ⟨_, rfl⟩⟩
    next hf =>
      have ih := upToFatal h
      refine ⟨List.prefix_cons_inj _ |>.mpr ih.in_order, fun z hz => ?_, by simp [ih.ok_iff, hf],
        fun hall => by rw [List.map_cons, ih.all_written fun z hz => hall z (.tail _ hz)], ih.returns⟩
      cases wr with
      | nil => nomatch hz
      | cons v wr =>
        rcases hz with _ | ⟨_, hz⟩
        exacts [by simpa using hf, ih.fatal_last z hz]

end InTurn

/-! ## Programs that write in turn -/

def Event.mountAccepted : Event → Bool
  | ⟨.listMounts, .error _⟩ | ⟨.mount _ _, .error _⟩ | ⟨.tuneMount _ _, .error _⟩ => false
  | _ => true

theorem writesOf_append (evs evs' : List Event) : writesOf (evs ++ evs') = writesOf evs ++ writesOf evs' :=
  List.filterMap_append _ _ _

theorem writesOf_cons_of_ne {r : Req} (hr : ∀ path data, r ≠ .write path data) (x : Resp r)
    (evs : List Event) : writesOf (⟨r, x⟩ :: evs) = writesOf evs := by
  cases r <;> first | rfl | exact absurd rfl (hr _ _)

section
variable {W : Type} (h : (r : Req) → W → Resp r × W)

/-- From every world, a run of `p` whose mount requests the server accepts makes, in turn,
the writes of some `ws` with `S ws`, up to the first fatal answer. -/
def Prog.WritesInTurn (p : Prog α) (S : List (String × GoMap) → Prop) : Prop :=
  ∀ w, (∀ e ∈ p.events h w, e.mountAccepted = true) →
    ∃ ws, S ws ∧ InTurn ws (writesOf (p.events h w)) (p.run h w).outcome

variable {h}

namespace Prog.WritesInTurn

variable {S S₂ : List (String × GoMap) → Prop}

theorem mono {p : Prog α} (hp : p.WritesInTurn h S) {S' : List (String × GoMap) → Prop}
    (hS : ∀ ws, S ws → S' ws) : p.WritesInTurn h S' := fun w hacc =>
  let ⟨ws, hws, ht⟩ := hp w hacc
  ⟨ws, hS ws hws, ht⟩

theorem pure (a : α) : (Prog.pure a).WritesInTurn h (· = []) := fun _ _ => ⟨[], rfl, a, rfl⟩

theorem call {r : Req} {k : Resp r → Prog α} (hr : ∀ path data, r ≠ .write path data)
    (hk : ∀ x, Event.mountAccepted ⟨r, x⟩ = true → (k x).WritesInTurn h S) :
    (Prog.call r k).WritesInTurn h S := fun w hacc => by
  simp only [Prog.events, Prog.run_call, List.forall_mem_cons] at hacc ⊢
  rw [writesOf_cons_of_ne hr]
  exact hk _ hacc.1 _ hacc.2

theorem bind {p : Prog α} {f : α → Prog β} (hp : p.WritesInTurn h S) (hf : ∀ a, (f a).WritesInTurn h S₂)
    (hne : ∃ ws, S₂ ws) :
    (p.bind f).WritesInTurn h fun ws => ∃ ws₁ ws₂, S ws₁ ∧ S₂ ws₂ ∧ ws = ws₁ ++ ws₂ := fun w hacc => by
  rw [Prog.events_bind] at hacc
  rw [Prog.events_bind, Prog.run_bind, writesOf_append]
  obtain ⟨ws₁, hS₁, ht₁⟩ := hp w fun e he => hacc e (List.mem_append_left _ he)
  generalize p.run h w = r at hacc ht₁ ⊢
  obtain ⟨o, w', tr⟩ := r
  cases o with
  | ok a =>
    obtain ⟨ws₂, hS₂, ht₂⟩ := hf a w' fun e he => hacc e (List.mem_append_right _ he)
    exact ⟨ws₁ ++ ws₂, ⟨_, _, hS₁, hS₂, rfl⟩, ht₂.append_ok ht₁⟩
  | error e =>
    obtain ⟨ws₂, hS₂⟩ := hne
    exact ⟨ws₁ ++ ws₂, ⟨_, _, hS₁, hS₂, rfl⟩, by simpa [writesOf] using ht₁.append_error⟩
  | panic m => exact absurd ht₁.returns (by simp)
  | cut => exact absurd ht₁.returns (by simp)

theorem forM {l : List α} {f : α → Prog PUnit} {g : α → List (String × GoMap)}
    (hf : ∀ x ∈ l, (f x).WritesInTurn h (· = g x)) : (l.forM f).WritesInTurn h (· = l.flatMap g) := by
  induction l with
  | nil => exact pure _
  | cons x l ih =>
    exact ((hf x (.head _)).bind (fun _ => ih fun y hy => hf y (.tail _ hy)) ⟨_, rfl⟩).mono
      fun ws ⟨_, _, h₁, h₂, hws⟩ => by rw [hws, h₁, h₂, List.flatMap_cons]

theorem iterate {m : List (String × β)} {f : String × β → Prog PUnit} {g : String × β → List (String × GoMap)}
    (hf : ∀ x ∈ m, (f x).WritesInTurn h (· = g x)) :
    ((iterate m).bind fun l => l.forM f).WritesInTurn h fun ws =>
      ∃ cats : List (String × β), cats.Perm m ∧ ws = cats.flatMap g := by
  simp only [BankVaults.iterate, Prog.request, Prog.bind_eq, Prog.call_bind, Prog.pure_bind]
  refine call (by nofun) fun σ _ => ?_
  have hperm : (σ.1.filterMap fun i => m[i]?).Perm m :=
    (σ.2.filterMap _).trans (.of_eq (Block.filterMap_range_getElem? m))
  exact (forM fun x hx => hf x (hperm.subset hx)).mono fun ws hws => ⟨_, hperm, hws⟩

end Prog.WritesInTurn

end

/-! ## The phase of `Configure` -/

/-- The path and the data `writeSubConfig` writes for an entry `kvs` of the category
`configOption` of the engine at `path`. -/
def subConfigWrite (path configOption : String) (kvs : List (Value × Value)) : String × GoMap :=
  let name := (imapGet kvs "name").fmtS
  (s!"{path}/{configOption}/{name}", (Value.imap kvs).castToStringMap)

def categoryWrites (path : String) (x : String × Value) : List (String × GoMap) :=
  match x.2 with
  | .list subs => subs.flatMap fun sub => match sub with
    | .imap kvs => [subConfigWrite path x.1 kvs]
    | _ => []
  | _ => []

section
variable {W : Type} {h : (r : Req) → W → Resp r × W}

theorem writeSubConfig_inTurn (path configOption : String) (configData : Value) (kvs : List (Value × Value)) :
    (writeSubConfig path configOption configData (.imap kvs)).WritesInTurn h
      (· = [subConfigWrite path configOption kvs]) := fun w _ => by
  refine ⟨_, rfl, ?_⟩
  simp only [writeSubConfig, assert, Value.asIMap?, logicalWrite, Prog.request, Prog.bind_eq, Prog.pure_eq,
    Prog.pure_bind, Prog.call_bind, Prog.events, Prog.run_call]
  split
  next heq => simp [heq, writesOf, InTurn, fatal, subConfigWrite]
  next heq => split <;> simp [heq, writesOf, InTurn, fatal, subConfigWrite, Prog.throw_eq, Prog.events, *]

theorem category_inTurn (path : String) (x : String × Value)
    (hx : (match x.2 with
      | .list xs => xs.all Value.isIMap
      | _ => false) = true) :
    ((assert x.2.asList?).bind fun subs => subs.forM (writeSubConfig path x.1 x.2)).WritesInTurn h
      (· = categoryWrites path x) := by
  obtain ⟨configOption, configData⟩ := x
  cases configData
  case list xs =>
    refine Prog.WritesInTurn.forM fun sub hsub => ?_
    have hsub := List.all_eq_true.mp hx sub hsub
    cases sub with
    | imap kvs => exact writeSubConfig_inTurn _ _ _ kvs
    | _ => exact absurd hsub nofun
  all_goals exact absurd hx nofun

theorem entryPath_of_optStr {e : GoMap} (he : optStr e "path" = true) (t : String) :
    entryPath e t = .pure (authPath e t) :=
  (entryPath_eq e t).resolve_right fun hp => by simpa [hp] using returns_entryPath he t

theorem getOrDefault_of_isNullOrStr {e : GoMap} {key : String} (he : (e.get key).isNullOrStr = true) :
    ∃ s, getOrDefault e key = .pure s :=
  (getOrDefault_eq e key).resolve_right fun hp => by simpa [hp] using returns_getOrDefault he

/-- The writes for the nested configuration of the engine `e`: its categories in some
order, each category's entries in list order, under its resolved path. -/
def EngineWrites (e : GoMap) (ws : List (String × GoMap)) : Prop :=
  ∃ t, (e.get "type").asString? = some t ∧
    ∃ cats : List (String × Value), cats.Perm (getOrDefaultStringMap e "configuration") ∧
      ws = cats.flatMap (categoryWrites (authPath e t))

theorem engineWrites_nonempty {e : GoMap} (he : secretEntryOk e = true) : ∃ ws, EngineWrites e ws :=
  let ⟨t, ht⟩ := type_of_secretEntryOk he
  ⟨_, t, by rw [ht]; rfl, _, .refl _, rfl⟩

theorem configureSecretEngine_inTurn {e : GoMap} (he : secretEntryOk e = true) :
    (configureSecretEngine e).WritesInTurn h (EngineWrites e) := by
  obtain ⟨t, ht⟩ := type_of_secretEntryOk he
  simp only [secretEntryOk, Bool.and_eq_true, List.all_eq_true] at he
  obtain ⟨⟨⟨⟨⟨-, hpath⟩, hdesc⟩, hplugin⟩, -⟩, hconf⟩ := he
  have hloop := Prog.WritesInTurn.iterate (h := h) fun x hx => category_inTurn (authPath e t) x (hconf x hx)
  obtain ⟨d, hd⟩ := getOrDefault_of_isNullOrStr hdesc
  obtain ⟨pn, hpn⟩ := getOrDefault_of_isNullOrStr hplugin
  unfold configureSecretEngine
  rw [ht]
  simp only [Value.asString?, assert, Prog.bind_eq, Prog.pure_eq, Prog.pure_bind, entryPath_of_optStr hpath,
    sysListMounts, sysMount, sysTuneMount, Prog.request, Prog.orError, Prog.call_bind, hd, hpn]
  refine Prog.WritesInTurn.call (by nofun) fun x hx => ?_
  rcases x with _ | mounts
  · nomatch hx
  simp only [Prog.pure_bind]
  split
  all_goals
    refine (Prog.WritesInTurn.bind (S := (· = [])) (Prog.WritesInTurn.call (by nofun) fun x hx => ?_) (fun _ => hloop)
      ⟨_, _, .refl _, rfl⟩).mono fun ws ⟨_, _, h₁, ⟨cats, hperm, h₂⟩, hws⟩ =>
        ⟨t, by rw [ht]; rfl, cats, hperm, by rw [hws, h₁, h₂, List.nil_append]⟩
    rcases x with _ | _
    · nomatch hx
    exact Prog.WritesInTurn.pure _

/-- The writes of the phase for the entries `es`: each engine's `EngineWrites`, engine
after engine in list order. -/
def VisitsAll : List GoMap → List (String × GoMap) → Prop
  | [], ws => ws = []
  | e :: es, ws => ∃ ws₁ ws₂, EngineWrites e ws₁ ∧ VisitsAll es ws₂ ∧ ws = ws₁ ++ ws₂

theorem visitsAll_nonempty : ∀ {es : List GoMap}, (∀ e ∈ es, secretEntryOk e = true) → ∃ ws, VisitsAll es ws
  | [], _ => ⟨[], rfl⟩
  | e :: _, hok =>
    let ⟨ws₁, h₁⟩ := engineWrites_nonempty (hok e (.head _))
    let ⟨ws₂, h₂⟩ := visitsAll_nonempty fun e he => hok e (.tail _ he)
    ⟨_, ws₁, ws₂, h₁, h₂, rfl⟩

theorem forM_configureSecretEngine_inTurn {es : List GoMap} (hok : ∀ e ∈ es, secretEntryOk e = true) :
    (es.forM configureSecretEngine).WritesInTurn h (VisitsAll es) := by
  induction es with
  | nil => exact Prog.WritesInTurn.pure _
  | cons e es ih =>
    have hok' : ∀ e ∈ es, secretEntryOk e = true := fun e he => hok e (.tail _ he)
    exact (configureSecretEngine_inTurn (hok e (.head _))).bind (fun _ => ih hok') (visitsAll_nonempty hok')

theorem configureSecretEngines_inTurn {c : VaultConfig} {es : List GoMap} (hes : c.secrets = .ok es)
    (hok : ∀ e ∈ es, secretEntryOk e = true) : (configureSecretEngines c).WritesInTurn h (VisitsAll es) := by
  simp only [configureSecretEngines, hes, Prog.orError, Prog.bind_eq, Prog.pure_eq, Prog.pure_bind]
  exact forM_configureSecretEngine_inTurn hok

end

/-- Under the schema of the entries, and against a server that accepts every listing,
mount and tune, the phase writes the nested configuration of the engines in turn (the
engines in list order, the categories of each as its map range visits them, the entries
of a category in list order) up to the first write that fails with anything but an
overwrite refusal, and returns success exactly when no such write happens. -/
theorem configureSecretEngines_up_to_fatal {W : Type} (h : (r : Req) → W → Resp r × W) (c : VaultConfig)
    (es : List GoMap) (hes : c.secrets = .ok es) (hok : ∀ e ∈ es, secretEntryOk e = true) (w : W)
    (hacc : ∀ ev ∈ (configureSecretEngines c).events h w, ev.mountAccepted = true) :
    ∃ ws, VisitsAll es ws ∧
      UpToFatal ws (writesOf ((configureSecretEngines c).events h w)) ((configureSecretEngines c).run h w).outcome :=
  let ⟨ws, hws, ht⟩ := configureSecretEngines_inTurn hes hok w hacc
  ⟨ws, hws, ht.upToFatal⟩

def databaseEngine : VaultConfig :=
  ⟨.ok [], .ok [], .ok [[("type", .str "database"), ("configuration", .imap [(.str "config", .list [
    .imap [(.str "name", .str "old")], .imap [(.str "name", .str "main")],
    .imap [(.str "name", .str "broken")], .imap [(.str "name", .str "last")]])])]]⟩

/-- The spec server, except that it refuses to overwrite `database/config/old` and fails
the write of `database/config/broken`. -/
def refusingAnswer : (r : Req) → World → Resp r × World
  | .write "database/config/old" _, w => (.error "cannot update the connection, delete them before reconfiguring", w)
  | .write "database/config/broken" _, w => (.error "permission denied", w)
  | r, w => World.answer r w

theorem configureSecretEngines_up_to_fatal_sample :
    (∃ es, databaseEngine.secrets = .ok es ∧ ∃ ws, VisitsAll es ws ∧
      UpToFatal ws (writesOf ((configureSecretEngines databaseEngine).events refusingAnswer podWorld))
        ((configureSecretEngines databaseEngine).run refusingAnswer podWorld).outcome) ∧
      (writesOf ((configureSecretEngines databaseEngine).events refusingAnswer podWorld)).map (·.1.1) =
        ["database/config/old", "database/config/main", "database/config/broken"] :=
  ⟨⟨_, rfl, configureSecretEngines_up_to_fatal refusingAnswer databaseEngine _ rfl (by decide) podWorld
    (by decide)⟩, by decide⟩

/-- An engine whose category holds string-keyed maps, as a JSON configuration decodes
it, gets every listing and mount accepted and has no write refused, yet the phase does
not return: it fails a type assertion before its first write. -/
theorem configureSecretEngines_panics_on_json_entry :
    (∀ ev ∈ (configureSecretEngines ⟨.ok [], .ok [], .ok [kvFromJson]⟩).events World.answer podWorld,
        ev.mountAccepted = true) ∧
      (writesOf ((configureSecretEngines ⟨.ok [], .ok [], .ok [kvFromJson]⟩).events World.answer podWorld)).length = 0 ∧
      ((configureSecretEngines ⟨.ok [], .ok [], .ok [kvFromJson]⟩).run World.answer podWorld).outcome =
        .panic "interface conversion" := by
  decide

end BankVaults
