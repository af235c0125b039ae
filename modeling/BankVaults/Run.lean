import BankVaults.Prog

/-!
# Running a program

A world `W` answers each request and changes (`h r w`). `Prog.run` follows a program
through the answers to its end, `Prog.runFor n` stops after `n` requests, as a crash
would. `Prog.Holds h I Q p w` says that `I` holds of every world the run passes
through and `Q` of the value and world it ends with; crash points are then covered
by `Holds.runFor`. `Prog.Returns` says that no answers at all lead to a panic or a cut.
-/

namespace BankVaults

inductive Outcome (α : Type) where
  | ok (a : α)
  | error (err : String)
  | panic (msg : String)
  | cut
  deriving DecidableEq

structure Run (α W : Type) where
  outcome : Outcome α
  world : W
  trace : List Req

def Run.andThen (r : Run α W) (k : α → W → Run β W) : Run β W :=
  match r with
  | ⟨.ok a, w, tr⟩ => let r' := k a w; ⟨r'.outcome, r'.world, tr ++ r'.trace⟩
  | ⟨.error e, w, tr⟩ => ⟨.error e, w, tr⟩
  | ⟨.panic m, w, tr⟩ => ⟨.panic m, w, tr⟩
  | ⟨.cut, w, tr⟩ => ⟨.cut, w, tr⟩

def Run.orElse (r : Run α W) (k : String → W → Run α W) : Run α W :=
  match r with
  | ⟨.error e, w, tr⟩ => let r' := k e w; ⟨r'.outcome, r'.world, tr ++ r'.trace⟩
  | r => r

/-- Run `k` after a run on every exit but a cut, as Go runs a deferred call; the run's
outcome stands when `k` ends normally. -/
def Run.deferTo (r : Run α W) (k : W → Run Unit W) : Run α W :=
  match r with
  | ⟨.cut, w, tr⟩ => ⟨.cut, w, tr⟩
  | ⟨o, w, tr⟩ => let r' := (k w).andThen fun _ w' => ⟨o, w', []⟩; ⟨r'.outcome, r'.world, tr ++ r'.trace⟩

variable {W : Type} (h : (r : Req) → W → Resp r × W)

namespace Prog

def run : Prog α → W → Run α W
  | .pure a, w => ⟨.ok a, w, []⟩
  | .fail e, w => ⟨.error e, w, []⟩
  | .panic m, w => ⟨.panic m, w, []⟩
  | .cut, w => ⟨.cut, w, []⟩
  | .call r k, w => let r' := (k (h r w).1).run (h r w).2; ⟨r'.outcome, r'.world, r :: r'.trace⟩

def events : Prog α → W → List Event
  | .call r k, w => ⟨r, (h r w).1⟩ :: (k (h r w).1).events (h r w).2
  | _, _ => []

/-- The world after the first `n` requests have been answered. -/
def runFor : Nat → Prog α → W → W
  | n + 1, .call r k, w => (k (h r w).1).runFor n (h r w).2
  | _, _, w => w

@[simp] theorem run_pure (a : α) (w : W) : (Prog.pure a).run h w = ⟨.ok a, w, []⟩ := rfl
@[simp] theorem run_fail (e : String) (w : W) : (Prog.fail e : Prog α).run h w = ⟨.error e, w, []⟩ :=
  rfl
@[simp] theorem run_panic (m : String) (w : W) :
    (Prog.panic m : Prog α).run h w = ⟨.panic m, w, []⟩ := rfl
@[simp] theorem run_cut (w : W) : (Prog.cut : Prog α).run h w = ⟨.cut, w, []⟩ := rfl
@[simp] theorem run_call (r : Req) (k : Resp r → Prog α) (w : W) :
    (Prog.call r k).run h w =
      let r' := (k (h r w).1).run h (h r w).2; ⟨r'.outcome, r'.world, r :: r'.trace⟩ := rfl

@[simp] theorem andThen_ok (a : α) (w : W) (tr : List Req) (k : α → W → Run β W) :
    Run.andThen ⟨.ok a, w, tr⟩ k = ⟨(k a w).outcome, (k a w).world, tr ++ (k a w).trace⟩ := rfl
@[simp] theorem andThen_error (e : String) (w : W) (tr : List Req) (k : α → W → Run β W) :
    Run.andThen ⟨.error e, w, tr⟩ k = ⟨.error e, w, tr⟩ := rfl
@[simp] theorem andThen_panic (m : String) (w : W) (tr : List Req) (k : α → W → Run β W) :
    Run.andThen ⟨.panic m, w, tr⟩ k = ⟨.panic m, w, tr⟩ := rfl
@[simp] theorem andThen_cut (w : W) (tr : List Req) (k : α → W → Run β W) :
    Run.andThen ⟨.cut, w, tr⟩ k = ⟨.cut, w, tr⟩ := rfl

theorem run_bind (p : Prog α) (f : α → Prog β) (w : W) :
    (p.bind f).run h w = (p.run h w).andThen fun a w' => (f a).run h w' := by
  induction p generalizing w with
  | pure a => simp [Run.andThen]
  | call r k ih =>
    simp only [call_bind, run_call, ih]
    rcases run h (k (h r w).1) (h r w).2 with ⟨_ | _ | _ | _, _, _⟩ <;> simp [Run.andThen]
  | _ => rfl

theorem events_bind (p : Prog α) (f : α → Prog β) (w : W) :
    (p.bind f).events h w = p.events h w ++
      match (p.run h w).outcome with
      | .ok a => (f a).events h (p.run h w).world
      | _ => [] := by
  induction p generalizing w with
  | call r k ih => simp only [call_bind, events, ih, run_call, List.cons_append]
  | _ => rfl

theorem run_tryCatch (p : Prog α) (g : String → Prog α) (w : W) :
    (p.tryCatch g).run h w = (p.run h w).orElse fun e w' => (g e).run h w' := by
  induction p generalizing w with
  | fail e => simp [tryCatch, Run.orElse]
  | call r k ih =>
    simp only [tryCatch, run_call, ih]
    rcases run h (k (h r w).1) (h r w).2 with ⟨_ | _ | _ | _, _, _⟩ <;> simp [Run.orElse]
  | _ => rfl

theorem run_withDefer (p : Prog α) (q : Prog Unit) (w : W) :
    (p.withDefer q).run h w = (p.run h w).deferTo (q.run h) := by
  induction p generalizing w with
  | call r k ih =>
    simp only [withDefer, run_call, ih]
    rcases run h (k (h r w).1) (h r w).2 with ⟨_ | _ | _ | _, _, _⟩ <;> rfl
  | cut => rfl
  | _ => simp only [withDefer, run_bind]; rfl

theorem run_inv {I : W → Prop} (hI : ∀ r w, I w → I (h r w).2) (p : Prog α) {w : W} (hw : I w) :
    I (p.run h w).world := by
  induction p generalizing w with
  | call r k ih => exact ih _ (hI r w hw)
  | _ => exact hw

/-! A run of `p.bind f`, `p.tryCatch` or `p.withDefer` that ends normally is made of
runs of its parts that end normally. -/

theorem ok_of_bind {p : Prog α} {f : α → Prog β} {w : W} {b : β}
    (hok : ((p.bind f).run h w).outcome = .ok b) :
    ∃ a, (p.run h w).outcome = .ok a ∧ ((f a).run h (p.run h w).world).outcome = .ok b ∧
      ((p.bind f).run h w).world = ((f a).run h (p.run h w).world).world := by
  rw [run_bind] at hok ⊢
  generalize p.run h w = r at hok ⊢
  obtain ⟨o, w', tr⟩ := r
  cases o with
  | ok a => exact ⟨a, rfl, hok, rfl⟩
  | _ => cases hok

theorem ok_of_tryCatch_fail {p : Prog α} {g : String → String} {w : W} {a : α}
    (hok : ((p.tryCatch fun e => .fail (g e)).run h w).outcome = .ok a) :
    (p.run h w).outcome = .ok a ∧ ((p.tryCatch fun e => .fail (g e)).run h w).world = (p.run h w).world := by
  rw [run_tryCatch] at hok ⊢
  generalize p.run h w = r at hok ⊢
  obtain ⟨o, w', tr⟩ := r
  cases o with
  | error => cases hok
  | _ => exact ⟨hok, rfl⟩

theorem ok_of_withDefer {p : Prog α} {q : Prog Unit} {w : W} {a : α}
    (hok : ((p.withDefer q).run h w).outcome = .ok a) :
    (p.run h w).outcome = .ok a ∧ (q.run h (p.run h w).world).outcome = .ok () ∧
      ((p.withDefer q).run h w).world = (q.run h (p.run h w).world).world := by
  rw [run_withDefer] at hok ⊢
  generalize p.run h w = r at hok ⊢
  obtain ⟨o, w', tr⟩ := r
  cases o
  case cut => cases hok
  all_goals
    simp only [Run.deferTo] at hok ⊢
    generalize q.run h w' = s at hok ⊢
    obtain ⟨o', w'', tr'⟩ := s
    cases o' <;> first | exact ⟨hok, rfl, rfl⟩ | cases hok

end Prog

/-! ## Invariants along a run -/

namespace Prog

/-- `I` holds of every world the run of `p` from `w` passes through, and `Q` of its
normal end. -/
def Holds (I : W → Prop) (Q : α → W → Prop) : Prog α → W → Prop
  | .pure a, w => I w ∧ Q a w
  | .call r k, w => I w ∧ (k (h r w).1).Holds I Q (h r w).2
  | _, w => I w

variable {h} {I : W → Prop}

theorem Holds.inv {Q : α → W → Prop} {p : Prog α} {w : W} (hp : p.Holds h I Q w) : I w := by
  cases p <;> simp only [Holds] at hp <;> first | exact hp | exact hp.1

theorem Holds.mono {Q Q' : α → W → Prop} (hq : ∀ a w, I w → Q a w → Q' a w) :
    ∀ {p : Prog α} {w : W}, p.Holds h I Q w → p.Holds h I Q' w
  | .pure _, _, hp => ⟨hp.1, hq _ _ hp.1 hp.2⟩
  | .call _ _, _, hp => ⟨hp.1, Holds.mono hq hp.2⟩
  | .fail _, _, hp | .panic _, _, hp | .cut, _, hp => hp

theorem Holds.bind {Q : β → W → Prop} {f : α → Prog β} :
    ∀ {p : Prog α} {w : W}, p.Holds h I (fun a w' => (f a).Holds h I Q w') w →
      (p.bind f).Holds h I Q w
  | .pure _, _, hp => hp.2
  | .call _ _, _, hp => ⟨hp.1, Holds.bind hp.2⟩
  | .fail _, _, hp | .panic _, _, hp | .cut, _, hp => hp

theorem Holds.request {r : Req} {Q : Resp r → W → Prop} {w : W} (hw : I w) (hw' : I (h r w).2)
    (hq : Q (h r w).1 (h r w).2) : (Prog.request r).Holds h I Q w :=
  ⟨hw, hw', hq⟩

theorem Holds.orError {p : Prog (Except ε α)} {Q : α → W → Prop} {w : W}
    (hp : p.Holds h I (fun x w' => ∀ a, x = .ok a → Q a w') w) (wrap : ε → String) :
    (p.orError wrap).Holds h I Q w :=
  Holds.bind (hp.mono fun x _ hw hq => by cases x with
    | error => exact hw
    | ok a => exact ⟨hw, hq a rfl⟩)

theorem Holds.tryCatch_fail {Q : α → W → Prop} {g : String → String} :
    ∀ {p : Prog α} {w : W}, p.Holds h I Q w → (p.tryCatch fun e => .fail (g e)).Holds h I Q w
  | .pure _, _, hp => hp
  | .call _ _, _, hp => ⟨hp.1, Holds.tryCatch_fail hp.2⟩
  | .fail _, _, hp | .panic _, _, hp | .cut, _, hp => hp

theorem Holds.runFor {Q : α → W → Prop} :
    ∀ (n : Nat) {p : Prog α} {w : W}, p.Holds h I Q w → I (p.runFor h n w)
  | 0, _, _, hp => hp.inv
  | n + 1, .call _ _, _, hp => Holds.runFor n hp.2
  | _ + 1, .pure _, _, hp => hp.1
  | _ + 1, .fail _, _, hp | _ + 1, .panic _, _, hp | _ + 1, .cut, _, hp => hp

theorem Holds.run_ok {Q : α → W → Prop} :
    ∀ {p : Prog α} {w : W} {a : α}, p.Holds h I Q w → (p.run h w).outcome = .ok a →
      Q a (p.run h w).world
  | .pure _, _, _, hp, ho => by cases ho; exact hp.2
  | .call r k, w, _, hp, ho => @Holds.run_ok _ _ (k (h r w).1) (h r w).2 _ hp.2 ho
  | .fail _, _, _, _, ho | .panic _, _, _, _, ho | .cut, _, _, _, ho => by cases ho

end Prog

/-! ## Returning on every path -/

namespace Prog

/-- Whatever the answers, `p` returns a value or an error: it neither panics nor runs out
of fuel. -/
def Returns : Prog α → Prop
  | .pure _ | .fail _ => True
  | .panic _ | .cut => False
  | .call _ k => ∀ x, (k x).Returns

theorem Returns.run {p : Prog α} (hp : p.Returns) (w : W) :
    (∃ a, (p.run h w).outcome = .ok a) ∨ ∃ e, (p.run h w).outcome = .error e := by
  induction p generalizing w with
  | pure a => exact .inl ⟨a, rfl⟩
  | fail e => exact .inr ⟨e, rfl⟩
  | panic | cut => exact hp.elim
  | call r k ih => exact ih _ (hp _) _

theorem Returns.bind {f : α → Prog β} (hf : ∀ a, (f a).Returns) :
    ∀ {p : Prog α}, p.Returns → (p.bind f).Returns
  | .pure a, _ => hf a
  | .call _ _, hp => fun x => Returns.bind hf (hp x)
  | .fail _, hp | .panic _, hp | .cut, hp => hp

theorem Returns.tryCatch {g : String → Prog α} (hg : ∀ e, (g e).Returns) :
    ∀ {p : Prog α}, p.Returns → (p.tryCatch g).Returns
  | .fail e, _ => hg e
  | .call _ _, hp => fun x => Returns.tryCatch hg (hp x)
  | .pure _, hp | .panic _, hp | .cut, hp => hp

theorem Returns.withDefer {q : Prog Unit} (hq : q.Returns) :
    ∀ {p : Prog α}, p.Returns → (p.withDefer q).Returns
  | .pure a, _ => @Returns.bind _ _ (fun _ => Prog.pure a) (fun _ => trivial) q hq
  | .fail e, _ => @Returns.bind _ _ (fun _ => Prog.fail e) (fun _ => trivial) q hq
  | .call _ _, hp => fun x => Returns.withDefer hq (hp x)
  | .panic _, hp | .cut, hp => hp.elim

@[simp] theorem returns_request (r : Req) : (Prog.request r).Returns := fun _ => trivial

theorem Returns.orError {p : Prog (Except ε α)} (hp : p.Returns) (wrap : ε → String) :
    (p.orError wrap).Returns :=
  Returns.bind (fun x => by cases x <;> trivial) hp

theorem Returns.forM {xs : List α} {f : α → Prog PUnit} (hf : ∀ x ∈ xs, (f x).Returns) :
    (xs.forM f).Returns := by
  induction xs with
  | nil => trivial
  | cons x xs ih =>
    exact Returns.bind (fun _ => ih fun y hy => hf y (.tail _ hy)) (hf x (.head _))

end Prog

/-! ## Laws of every path

`Always ok next post p m`: whatever the answers, every request `p` makes is allowed
by `ok` in the monitor state reached so far, the monitor follows each answered
request with `next`, and a normal end satisfies `post`. -/

section Always

variable {M : Type} (ok : M → Req → Prop) (next : M → Event → M)

def Prog.Always (post : α → M → Prop) : Prog α → M → Prop
  | .pure a, m => post a m
  | .call r k, m => ok m r ∧ ∀ x, (k x).Always post (next m ⟨r, x⟩)
  | _, _ => True

variable {ok next}

theorem Prog.Always.bind {post : β → M → Prop} {f : α → Prog β} :
    ∀ {p : Prog α} {m : M}, p.Always ok next (fun a m' => (f a).Always ok next post m') m →
      (p.bind f).Always ok next post m
  | .pure _, _, hp => hp
  | .call _ _, _, hp => ⟨hp.1, fun x => Prog.Always.bind (hp.2 x)⟩
  | .fail _, _, _ | .panic _, _, _ | .cut, _, _ => trivial

theorem Prog.Always.mono {post post' : α → M → Prop} (hq : ∀ a m, post a m → post' a m) :
    ∀ {p : Prog α} {m : M}, p.Always ok next post m → p.Always ok next post' m
  | .pure _, _, hp => hq _ _ hp
  | .call _ _, _, hp => ⟨hp.1, fun x => Prog.Always.mono hq (hp.2 x)⟩
  | .fail _, _, _ | .panic _, _, _ | .cut, _, _ => trivial

theorem Prog.Always.tryCatch_fail {post : α → M → Prop} {g : String → String} :
    ∀ {p : Prog α} {m : M}, p.Always ok next post m →
      (p.tryCatch fun e => .fail (g e)).Always ok next post m
  | .pure _, _, hp => hp
  | .call _ _, _, hp => ⟨hp.1, fun x => Prog.Always.tryCatch_fail (hp.2 x)⟩
  | .fail _, _, _ | .panic _, _, _ | .cut, _, _ => trivial

theorem Prog.Always.orError {post : α → M → Prop} {p : Prog (Except ε α)} {m : M}
    (hp : p.Always ok next (fun x m' => ∀ a, x = .ok a → post a m') m) (wrap : ε → String) :
    (p.orError wrap).Always ok next post m :=
  Prog.Always.bind (hp.mono fun x _ h => by cases x <;> simp_all [Prog.Always])

theorem Prog.Always.request {post : Resp r → M → Prop} {m : M} (hr : ok m r)
    (hp : ∀ x, post x (next m ⟨r, x⟩)) : (Prog.request r).Always ok next post m :=
  ⟨hr, hp⟩

theorem Prog.Always.forM {inv : M → Prop} {f : α → Prog PUnit} :
    ∀ {xs : List α} {m : M}, (∀ x ∈ xs, ∀ m, inv m → (f x).Always ok next (fun _ => inv) m) →
      inv m → (xs.forM f).Always ok next (fun _ => inv) m
  | [], _, _, hm => hm
  | x :: _, _, hf, hm => Prog.Always.bind <| (hf x (.head _) _ hm).mono fun _ _ hm' =>
      Prog.Always.forM (fun y hy => hf y (.tail _ hy)) hm'

/-! ## What a program may ask -/

def Prog.OnlyIssues (P : Req → Prop) : Prog α → Prop
  | .call r k => P r ∧ ∀ x, (k x).OnlyIssues P
  | _ => True

theorem Prog.OnlyIssues.bind {P : Req → Prop} {f : α → Prog β} (hf : ∀ a, (f a).OnlyIssues P) :
    ∀ {p : Prog α}, p.OnlyIssues P → (p.bind f).OnlyIssues P
  | .pure a, _ => hf a
  | .call _ _, hp => ⟨hp.1, fun x => Prog.OnlyIssues.bind hf (hp.2 x)⟩
  | .fail _, _ | .panic _, _ | .cut, _ => trivial

theorem Prog.OnlyIssues.mono {P P' : Req → Prop} (hP : ∀ r, P r → P' r) :
    ∀ {p : Prog α}, p.OnlyIssues P → p.OnlyIssues P'
  | .call _ _, hp => ⟨hP _ hp.1, fun x => Prog.OnlyIssues.mono hP (hp.2 x)⟩
  | .pure _, _ | .fail _, _ | .panic _, _ | .cut, _ => trivial

theorem Prog.OnlyIssues.tryCatch {P : Req → Prop} {g : String → Prog α}
    (hg : ∀ e, (g e).OnlyIssues P) : ∀ {p : Prog α}, p.OnlyIssues P → (p.tryCatch g).OnlyIssues P
  | .fail e, _ => hg e
  | .call _ _, hp => ⟨hp.1, fun x => Prog.OnlyIssues.tryCatch hg (hp.2 x)⟩
  | .pure _, _ | .panic _, _ | .cut, _ => trivial

theorem Prog.OnlyIssues.withDefer {P : Req → Prop} {q : Prog Unit} (hq : q.OnlyIssues P) :
    ∀ {p : Prog α}, p.OnlyIssues P → (p.withDefer q).OnlyIssues P
  | .call _ _, hp => ⟨hp.1, fun x => Prog.OnlyIssues.withDefer hq (hp.2 x)⟩
  | .pure a, _ => Prog.OnlyIssues.bind (f := fun _ => .pure a) (fun _ => trivial) hq
  | .fail e, _ => Prog.OnlyIssues.bind (f := fun _ => .fail e) (fun _ => trivial) hq
  | .panic m, _ => Prog.OnlyIssues.bind (f := fun _ => .panic m) (fun _ => trivial) hq
  | .cut, _ => trivial

theorem Prog.onlyIssues_request {P : Req → Prop} (h : P r) : (Prog.request r).OnlyIssues P :=
  ⟨h, fun _ => trivial⟩

theorem Prog.onlyIssues_assert (P : Req → Prop) (v : Option α) : (assert v).OnlyIssues P := by
  cases v <;> trivial

theorem Prog.onlyIssues_request_self (r : Req) : (Prog.request r).OnlyIssues (· = r) :=
  ⟨rfl, fun _ => trivial⟩

theorem Prog.OnlyIssues.orError {P : Req → Prop} {p : Prog (Except ε α)} (hp : p.OnlyIssues P)
    (wrap : ε → String) : (p.orError wrap).OnlyIssues P :=
  hp.bind fun x => by cases x <;> trivial

theorem Prog.OnlyIssues.forM {P : Req → Prop} {f : α → Prog PUnit} :
    ∀ {xs : List α}, (∀ x ∈ xs, (f x).OnlyIssues P) → (xs.forM f).OnlyIssues P
  | [], _ => trivial
  | x :: _, hf => (hf x (.head _)).bind fun _ => Prog.OnlyIssues.forM fun y hy => hf y (.tail _ hy)

theorem Prog.OnlyIssues.always {P : Req → Prop} {inv : M → Prop}
    (hok : ∀ m r, P r → inv m → ok m r) (hnext : ∀ m r x, P r → inv m → inv (next m ⟨r, x⟩)) :
    ∀ {p : Prog α} {m : M}, p.OnlyIssues P → inv m → p.Always ok next (fun _ => inv) m
  | .call r _, m, hp, hm =>
    ⟨hok m r hp.1 hm, fun x => Prog.OnlyIssues.always hok hnext (hp.2 x) (hnext m r x hp.1 hm)⟩
  | .pure _, _, _, hm => hm
  | .fail _, _, _, _ | .panic _, _, _, _ | .cut, _, _, _ => trivial

end Always

section
variable {h} {I : W → Prop}

theorem Prog.Holds.of_onlyIssues {P : Req → Prop} {J : W → Prop}
    (hP : ∀ r w, P r → I w → J w → I (h r w).2 ∧ J (h r w).2) :
    ∀ {p : Prog α} {w : W}, p.OnlyIssues P → I w → J w → p.Holds h I (fun _ => J) w
  | .call r _, w, hp, hw, hj =>
    ⟨hw, Prog.Holds.of_onlyIssues hP (hp.2 _) (hP r w hp.1 hw hj).1 (hP r w hp.1 hw hj).2⟩
  | .pure _, _, _, hw, hj => ⟨hw, hj⟩
  | .fail _, _, _, hw, _ | .panic _, _, _, hw, _ | .cut, _, _, hw, _ => hw

theorem Prog.runFor_of_trace_le :
    ∀ (n : Nat) {p : Prog α} {w : W}, (p.run h w).trace.length ≤ n → p.runFor h n w = (p.run h w).world
  | n + 1, .call r k, w, hn => Prog.runFor_of_trace_le n (p := k (h r w).1) (w := (h r w).2)
      (by simpa only [Prog.run_call, List.length_cons, Nat.add_le_add_iff_right] using hn)
  | 0, .call r k, w, hn => by simp only [Prog.run_call, List.length_cons] at hn; omega
  | 0, .pure _, _, _ | 0, .fail _, _, _ | 0, .panic _, _, _ | 0, .cut, _, _
  | _ + 1, .pure _, _, _ | _ + 1, .fail _, _, _ | _ + 1, .panic _, _, _ | _ + 1, .cut, _, _ => rfl

end

/-! ## Programs that make only some requests and always finish -/

/-- Every request of `p` satisfies `P`, whatever the answers, and no answers make `p` run
out of fuel: every run ends by returning, with an error or with a panic. -/
def Prog.Confined (P : Req → Prop) : Prog α → Prop
  | .call r k => P r ∧ ∀ x, (k x).Confined P
  | .cut => False
  | _ => True

namespace Prog.Confined

variable {P : Req → Prop}

theorem onlyIssues : ∀ {p : Prog α}, p.Confined P → p.OnlyIssues P
  | .call _ _, hp => ⟨hp.1, fun x => onlyIssues (hp.2 x)⟩
  | .pure _, _ | .fail _, _ | .panic _, _ | .cut, _ => trivial

theorem mono {P' : Req → Prop} (hP : ∀ r, P r → P' r) : ∀ {p : Prog α}, p.Confined P → p.Confined P'
  | .call _ _, hp => ⟨hP _ hp.1, fun x => mono hP (hp.2 x)⟩
  | .pure _, _ | .fail _, _ | .panic _, _ => trivial
  | .cut, hp => hp

theorem bind {f : α → Prog β} (hf : ∀ a, (f a).Confined P) :
    ∀ {p : Prog α}, p.Confined P → (p.bind f).Confined P
  | .pure a, _ => hf a
  | .call _ _, hp => ⟨hp.1, fun x => bind hf (hp.2 x)⟩
  | .fail _, _ | .panic _, _ => trivial
  | .cut, hp => hp

theorem tryCatch {g : String → Prog α} (hg : ∀ e, (g e).Confined P) :
    ∀ {p : Prog α}, p.Confined P → (p.tryCatch g).Confined P
  | .fail e, _ => hg e
  | .call _ _, hp => ⟨hp.1, fun x => tryCatch hg (hp.2 x)⟩
  | .pure _, _ | .panic _, _ => trivial
  | .cut, hp => hp

theorem request {r : Req} (hr : P r) : (Prog.request r).Confined P := ⟨hr, fun _ => trivial⟩

theorem assert (v : Option α) : (assert v).Confined P := by
  cases v <;> trivial

theorem orError {p : Prog (Except ε α)} (hp : p.Confined P) (wrap : ε → String) : (p.orError wrap).Confined P :=
  hp.bind fun x => by cases x <;> trivial

theorem forM {f : α → Prog PUnit} : ∀ {xs : List α}, (∀ x ∈ xs, (f x).Confined P) → (xs.forM f).Confined P
  | [], _ => trivial
  | x :: _, hf => (hf x (.head _)).bind fun _ => forM fun y hy => hf y (.tail _ hy)

theorem run_ne_cut : ∀ {p : Prog α} {w : W}, p.Confined P → (p.run h w).outcome ≠ .cut
  | .call r k, w, hp => run_ne_cut (p := k (h r w).1) (w := (h r w).2) (hp.2 _)
  | .pure _, _, _ | .fail _, _, _ | .panic _, _, _ => nofun
  | .cut, _, hp => hp.elim

end Prog.Confined

theorem Prog.OnlyIssues.mem_trace {P : Req → Prop} :
    ∀ {p : Prog α} {w : W}, p.OnlyIssues P → ∀ r ∈ (p.run h w).trace, P r
  | .call _ _, _, hp, _, .head _ => hp.1
  | .call r k, w, hp, r', .tail _ hr => Prog.OnlyIssues.mem_trace (p := k (h r w).1) (w := (h r w).2) (hp.2 _) r' hr
  | .pure _, _, _, _, hr | .fail _, _, _, _, hr | .panic _, _, _, _, hr | .cut, _, _, _, hr => nomatch hr

/-! ## What a run that ends normally leaves -/

section
variable {h}

/-- `Q` holds of the value and the world a run of `p` from `w` ends with, when it ends
normally. -/
def Prog.Post (h : (r : Req) → W → Resp r × W) (p : Prog α) (Q : α → W → Prop) (w : W) : Prop :=
  ∀ a, (p.run h w).outcome = .ok a → Q a (p.run h w).world

namespace Prog.Post

variable {Q : α → W → Prop} {w : W}

theorem pure {a : α} (hq : Q a w) : (Prog.pure a).Post h Q w := fun _ ha => by cases ha; exact hq

theorem fail (e : String) : (Prog.fail e : Prog α).Post h Q w := fun _ ha => nomatch ha

theorem mono {Q' : α → W → Prop} {p : Prog α} (hp : p.Post h Q w) (hq : ∀ a w, Q a w → Q' a w) :
    p.Post h Q' w := fun a ha => hq _ _ (hp a ha)

theorem and {Q' : α → W → Prop} {p : Prog α} (hp : p.Post h Q w) (hq : p.Post h Q' w) :
    p.Post h (fun a w => Q a w ∧ Q' a w) w := fun a ha => ⟨hp a ha, hq a ha⟩

theorem of_inv {I : W → Prop} (hI : ∀ r w, I w → I (h r w).2) (p : Prog α) (hw : I w) :
    p.Post h (fun _ => I) w := fun _ _ => run_inv h hI p hw

theorem of_onlyIssues {P : Req → Prop} {I : W → Prop} (hP : ∀ r w, P r → I w → I (h r w).2) {p : Prog α}
    (hp : p.OnlyIssues P) (hw : I w) : p.Post h (fun _ => I) w := fun _ ha =>
  (Prog.Holds.of_onlyIssues (I := fun _ => True) (fun r w hr _ hw => ⟨trivial, hP r w hr hw⟩) hp trivial hw).run_ok ha

theorem bind {Q : β → W → Prop} {p : Prog α} {f : α → Prog β}
    (hp : p.Post h (fun a w' => (f a).Post h Q w') w) : (p.bind f).Post h Q w := fun b hb => by
  obtain ⟨a, ha, hfb, hw⟩ := ok_of_bind h hb
  rw [hw]
  exact hp a ha b hfb

theorem bind_inv {Q : β → W → Prop} {I : W → Prop} (hI : ∀ r w, I w → I (h r w).2) {p : Prog α}
    {f : α → Prog β} (hw : I w) (hf : ∀ a w', I w' → (f a).Post h Q w') : (p.bind f).Post h Q w :=
  bind ((of_inv hI p hw).mono fun a w' hw' => hf a w' hw')

theorem tryCatch_fail {p : Prog α} {g : String → String} (hp : p.Post h Q w) :
    (p.tryCatch fun e => .fail (g e)).Post h Q w := fun a ha => by
  obtain ⟨hpa, hw⟩ := ok_of_tryCatch_fail h ha
  rw [hw]
  exact hp a hpa

theorem withDefer {p : Prog α} {q : Prog Unit} (hp : p.Post h (fun a w' => q.Post h (fun _ => Q a) w') w) :
    (p.withDefer q).Post h Q w := fun a ha => by
  obtain ⟨hpa, hqa, hw⟩ := ok_of_withDefer h ha
  rw [hw]
  exact hp a hpa () hqa

theorem request {r : Req} {Q : Resp r → W → Prop} (hq : Q (h r w).1 (h r w).2) :
    (Prog.request r).Post h Q w := fun _ ha => by cases ha; exact hq

theorem orError {p : Prog (Except ε α)} (hp : p.Post h (fun x w' => ∀ a, x = .ok a → Q a w') w)
    (wrap : ε → String) : (p.orError wrap).Post h Q w :=
  bind (hp.mono fun x _ hx => by
    cases x
    · exact fail _
    · exact pure (hx _ rfl))

end Prog.Post

end

/-! ## Runs that return -/

section
variable {h}

/-- The run of `p` from `w` returns a value, and `Q` holds of it and of the world the run
ends in: `Post` with the return itself promised. -/
def Prog.Yields (h : (r : Req) → W → Resp r × W) (p : Prog α) (Q : α → W → Prop) (w : W) : Prop :=
  ∃ a, (p.run h w).outcome = .ok a ∧ Q a (p.run h w).world

namespace Prog.Yields

variable {Q : α → W → Prop} {w : W}

theorem pure {a : α} (hq : Q a w) : (Prog.pure a).Yields h Q w := ⟨a, rfl, hq⟩

theorem mono {Q' : α → W → Prop} {p : Prog α} (hp : p.Yields h Q w) (hq : ∀ a w, Q a w → Q' a w) :
    p.Yields h Q' w :=
  let ⟨a, ha, hQ⟩ := hp
  ⟨a, ha, hq _ _ hQ⟩

theorem call {r : Req} {k : Resp r → Prog α} (hk : (k (h r w).1).Yields h Q (h r w).2) :
    (Prog.call r k).Yields h Q w := hk

theorem request {r : Req} {Q : Resp r → W → Prop} (hq : Q (h r w).1 (h r w).2) :
    (Prog.request r).Yields h Q w := ⟨_, rfl, hq⟩

theorem bind {Q : β → W → Prop} {p : Prog α} {f : α → Prog β}
    (hp : p.Yields h (fun a w' => (f a).Yields h Q w') w) : (p.bind f).Yields h Q w := by
  obtain ⟨a, ha, hf⟩ := hp
  rw [Yields, run_bind]
  generalize p.run h w = r at ha hf
  obtain ⟨o, w', tr⟩ := r
  cases ha
  exact hf

theorem tryCatch {p : Prog α} {g : String → Prog α} (hp : p.Yields h Q w) : (p.tryCatch g).Yields h Q w := by
  obtain ⟨a, ha, hq⟩ := hp
  rw [Yields, run_tryCatch]
  generalize p.run h w = r at ha hq
  obtain ⟨o, w', tr⟩ := r
  cases ha
  exact ⟨a, rfl, hq⟩

theorem orError {p : Prog (Except ε α)} (hp : p.Yields h (fun x w' => ∃ a, x = .ok a ∧ Q a w') w)
    (wrap : ε → String) : (p.orError wrap).Yields h Q w :=
  bind (hp.mono fun _ _ ⟨_, hx, hq⟩ => by subst hx; exact pure hq)

theorem forM {f : β → Prog PUnit} {I : List β → W → Prop}
    (hf : ∀ x xs w, I (x :: xs) w → (f x).Yields h (fun _ => I xs) w) :
    ∀ {l : List β} {w : W}, I l w → (l.forM f).Yields h (fun _ => I []) w
  | [], _, hw => pure hw
  | x :: xs, _, hw => bind ((hf x xs _ hw).mono fun _ _ hw' => forM hf hw')

end Prog.Yields

end

/-! ## Runs from related worlds -/

/-- Two runs end the same way, in related worlds. -/
def Run.Rel (R : W → W → Prop) (r₁ r₂ : Run α W) : Prop :=
  r₁.outcome = r₂.outcome ∧ R r₁.world r₂.world

section
variable {R : W → W → Prop} {r₁ r₂ : Run α W}

theorem Run.Rel.andThen (hr : r₁.Rel R r₂) {k : α → W → Run β W}
    (hk : ∀ a w₁ w₂, R w₁ w₂ → (k a w₁).Rel R (k a w₂)) : (r₁.andThen k).Rel R (r₂.andThen k) := by
  obtain ⟨o, w₁, _⟩ := r₁
  obtain ⟨_, w₂, _⟩ := r₂
  obtain ⟨rfl, hw⟩ := hr
  cases o
  case ok a => exact hk a w₁ w₂ hw
  all_goals exact ⟨rfl, hw⟩

theorem Run.Rel.orElse (hr : r₁.Rel R r₂) {k : String → W → Run α W}
    (hk : ∀ e w₁ w₂, R w₁ w₂ → (k e w₁).Rel R (k e w₂)) : (r₁.orElse k).Rel R (r₂.orElse k) := by
  obtain ⟨o, w₁, _⟩ := r₁
  obtain ⟨_, w₂, _⟩ := r₂
  obtain ⟨rfl, hw⟩ := hr
  cases o
  case error e => exact hk e w₁ w₂ hw
  all_goals exact ⟨rfl, hw⟩

theorem Run.Rel.deferTo (hr : r₁.Rel R r₂) {k : W → Run Unit W}
    (hk : ∀ w₁ w₂, R w₁ w₂ → (k w₁).Rel R (k w₂)) : (r₁.deferTo k).Rel R (r₂.deferTo k) := by
  obtain ⟨o, w₁, _⟩ := r₁
  obtain ⟨_, w₂, _⟩ := r₂
  obtain ⟨rfl, hw⟩ := hr
  cases o
  case cut => exact ⟨rfl, hw⟩
  all_goals exact (hk w₁ w₂ hw).andThen fun _ _ _ hw' => ⟨rfl, hw'⟩

end

section
variable {h} {R : W → W → Prop}

/-- From related worlds, `p` ends the same way, in related worlds. -/
def Prog.Agree (h : (r : Req) → W → Resp r × W) (R : W → W → Prop) (p : Prog α) : Prop :=
  ∀ w₁ w₂, R w₁ w₂ → (p.run h w₁).Rel R (p.run h w₂)

def AgreesOn (h : (r : Req) → W → Resp r × W) (R : W → W → Prop) (r : Req) : Prop :=
  ∀ w₁ w₂, R w₁ w₂ → (h r w₁).1 = (h r w₂).1 ∧ R (h r w₁).2 (h r w₂).2

namespace Prog.Agree

theorem pure (a : α) : (Prog.pure a).Agree h R := fun _ _ hw => ⟨rfl, hw⟩

theorem fail (e : String) : (Prog.fail e : Prog α).Agree h R := fun _ _ hw => ⟨rfl, hw⟩

theorem assert (v : Option α) : (assert v).Agree h R := by
  cases v
  · exact fun _ _ hw => ⟨rfl, hw⟩
  · exact pure _

theorem call {r : Req} {k : Resp r → Prog α} (hr : AgreesOn h R r) (hk : ∀ x, (k x).Agree h R) :
    (Prog.call r k).Agree h R := fun w₁ w₂ hw => by
  obtain ⟨hx, hw'⟩ := hr w₁ w₂ hw
  simp only [Prog.run_call, hx]
  exact hk _ _ _ hw'

theorem bind {p : Prog α} {f : α → Prog β} (hp : p.Agree h R) (hf : ∀ a, (f a).Agree h R) :
    (p.bind f).Agree h R := fun w₁ w₂ hw => by
  rw [run_bind, run_bind]
  exact (hp w₁ w₂ hw).andThen fun a => hf a

theorem tryCatch {p : Prog α} {g : String → Prog α} (hp : p.Agree h R) (hg : ∀ e, (g e).Agree h R) :
    (p.tryCatch g).Agree h R := fun w₁ w₂ hw => by
  rw [run_tryCatch, run_tryCatch]
  exact (hp w₁ w₂ hw).orElse fun e => hg e

theorem withDefer {p : Prog α} {q : Prog Unit} (hp : p.Agree h R) (hq : q.Agree h R) :
    (p.withDefer q).Agree h R := fun w₁ w₂ hw => by
  rw [run_withDefer, run_withDefer]
  exact (hp w₁ w₂ hw).deferTo hq

theorem orError {p : Prog (Except ε α)} (hp : p.Agree h R) (wrap : ε → String) :
    (p.orError wrap).Agree h R :=
  hp.bind fun x => by cases x; exacts [fail _, pure _]

theorem forM {l : List α} {f : α → Prog PUnit} (hf : ∀ x ∈ l, (f x).Agree h R) :
    (l.forM f).Agree h R := by
  induction l with
  | nil => exact pure _
  | cons x l ih => exact (hf x (.head _)).bind fun _ => ih fun y hy => hf y (.tail _ hy)

end Prog.Agree

end

theorem mem_iterate {m : List (String × β)} {o : List Nat} {x : String × β}
    (hx : x ∈ o.filterMap fun i => m[i]?) : x ∈ m := by
  obtain ⟨i, -, hi⟩ := List.mem_filterMap.mp hx
  exact List.getElem?_mem hi

theorem returns_iterate_forM {m : List (String × β)} {f : String × β → Prog PUnit}
    (hf : ∀ x ∈ m, (f x).Returns) : ((iterate m).bind fun l => l.forM f).Returns := fun _ =>
  Prog.Returns.forM fun _ hx => hf _ (mem_iterate hx)

end BankVaults
