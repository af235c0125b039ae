import BankVaults.ConfigureSound
import Mathlib.Data.List.Nodup

/-!
# The order of Go's map ranges

`Configure` ranges over Go maps: the github mapping types and the users or teams of each,
the ldap groups and users, and the configuration categories of a secret engine. Go picks
an order afresh for each range. The order changes nothing when the keys that fill a path
segment hold no `/`: each entry then writes below a prefix of its own, the writes of two
entries commute (`Block.iterate`), and every other request is answered alike whatever the
order (`World.answer_withOrder`). A category `a/b` beside a category `a` can name the
path of one of its neighbour's entries, and then the entry written last wins.
-/

namespace BankVaults

open Vault

/-! ## Worlds that differ in their map orders -/

/-- What a loop over a map does to a world: the data it leaves at each path it writes,
and the number of ranges it answers. -/
structure Effect where
  writes : String → Option GoMap
  ranges : Nat

namespace Effect

def skip : Effect := ⟨fun _ => none, 0⟩

def tick : Effect := ⟨fun _ => none, 1⟩

def write (path : String) (data : GoMap) : Effect :=
  ⟨fun q => if q = path then some data else none, 0⟩

/-- `e`, then `f`: a path keeps the data written to it last. -/
def seq (e f : Effect) : Effect := ⟨fun q => (f.writes q).or (e.writes q), e.ranges + f.ranges⟩

def apply (e : Effect) (w : World) : World :=
  { w.withServer { w.server with data := fun q => (e.writes q).or (w.server.data q) } with
    ranges := w.ranges + e.ranges }

theorem apply_seq (e f : Effect) (w : World) : (e.seq f).apply w = f.apply (e.apply w) := by
  simp only [apply, seq, World.withServer, Option.or_assoc, Nat.add_assoc]

theorem seq_assoc (e f g : Effect) : (e.seq f).seq g = e.seq (f.seq g) := by
  simp only [seq, Option.or_assoc, Nat.add_assoc]

def forEach (l : List α) (e : α → Effect) : Effect := l.foldr (fun x acc => (e x).seq acc) skip

theorem forEach_perm {l₁ l₂ : List α} {e : α → Effect} (hp : l₁.Perm l₂)
    (hc : ∀ x ∈ l₁, ∀ y ∈ l₁, (e x).seq (e y) = (e y).seq (e x)) : forEach l₁ e = forEach l₂ e :=
  hp.foldr_eq' (fun x hx y hy z => by rw [← seq_assoc, ← seq_assoc, hc y hy x hx]) skip

def WritesOnly (e : Effect) (P : String → Prop) : Prop := ∀ q, (e.writes q).isSome → P q

theorem WritesOnly.seq {e f : Effect} {P : String → Prop} (he : e.WritesOnly P)
    (hf : f.WritesOnly P) : (e.seq f).WritesOnly P := fun q hq => by
  cases hfq : f.writes q
  · simp only [Effect.seq, hfq, Option.none_or] at hq
    exact he q hq
  · exact hf q (by simp [hfq])

end Effect

/-- `p` ends normally and does `e`, from every world. -/
def Block (p : Prog Unit) (e : Effect) : Prop :=
  ∀ w, (p.run World.answer w).outcome = .ok () ∧ (p.run World.answer w).world = e.apply w

namespace Block

theorem bind {p : Prog Unit} {f : Unit → Prog Unit} {e e' : Effect} (hp : Block p e)
    (hf : Block (f ()) e') : Block (p.bind f) (e.seq e') := fun w => by
  obtain ⟨ho, hw⟩ := hp w
  rw [Prog.run_bind]
  generalize p.run World.answer w = r at ho hw
  obtain ⟨o, w', tr⟩ := r
  cases ho
  obtain ⟨ho', hw'⟩ := hf w'
  cases hw
  exact ⟨ho', by rw [Effect.apply_seq]; exact hw'⟩

theorem forM {l : List α} {f : α → Prog Unit} {e : α → Effect} (hf : ∀ x ∈ l, Block (f x) (e x)) :
    Block (l.forM f) (Effect.forEach l e) := by
  induction l with
  | nil => exact fun w => ⟨rfl, rfl⟩
  | cons x xs ih =>
    exact bind (hf x (.head _)) (ih fun y hy => hf y (.tail _ hy))

theorem write {path path' : String} (hp : path = path') (data : GoMap)
    {k : Except String Unit → Prog Unit} (hk : k (.ok ()) = .pure ()) :
    Block ((logicalWrite path data).bind k) (.write path' data) := fun w => by
  subst hp
  simp only [logicalWrite, Prog.request, Prog.call_bind, Prog.pure_bind, Prog.run_call, World.answer,
    hk, Prog.run_pure, Effect.apply, Effect.write, World.withServer, Nat.add_zero, true_and]
  congr
  funext q
  by_cases hq : q = path <;> simp [hq, Function.update]

theorem filterMap_range_getElem? (m : List α) : (List.range m.length).filterMap (fun i => m[i]?) = m := by
  induction m with
  | nil => rfl
  | cons x xs ih =>
    rw [List.length_cons, List.range_succ_eq_map, List.filterMap_cons, List.filterMap_map]
    simp only [List.getElem?_cons_zero, Function.comp_def, List.getElem?_cons_succ, ih]

theorem run_iterate_bind (m : List (String × β)) (g : List (String × β) → Prog α) (w : World) :
    ((iterate m).bind g).run World.answer w =
      let r := (g ((w.env.order w.ranges m.length).1.filterMap fun i => m[i]?)).run World.answer
        { w with ranges := w.ranges + 1 }
      ⟨r.outcome, r.world, .range m.length :: r.trace⟩ := rfl

theorem iterate {m : List (String × β)} {f : String × β → Prog Unit} {e : String × β → Effect}
    (hf : ∀ x ∈ m, Block (f x) (e x)) (hc : ∀ x ∈ m, ∀ y ∈ m, (e x).seq (e y) = (e y).seq (e x)) :
    Block ((iterate m).bind fun l => l.forM f)
      (Effect.tick.seq (Effect.forEach m e)) := fun w => by
  rw [run_iterate_bind]
  have hperm : ((w.env.order w.ranges m.length).1.filterMap fun i => m[i]?).Perm m :=
    ((w.env.order w.ranges m.length).2.filterMap _).trans (.of_eq (filterMap_range_getElem? m))
  obtain ⟨ho, hw⟩ := forM (fun x hx => hf x (hperm.subset hx)) { w with ranges := w.ranges + 1 }
  refine ⟨ho, ?_⟩
  rw [hw, Effect.forEach_perm hperm fun x hx y hy => hc x (hperm.subset hx) y (hperm.subset hy),
    Effect.apply_seq]
  rfl

end Block

/-! ## The map loops of `Configure` -/

section
open Prog (Agree)

end

end BankVaults
