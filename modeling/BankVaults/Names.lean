import Mathlib.Logic.Function.Basic

/-!
# Key names

`unsealKeyForID i` is `fmt.Sprint("vault-unseal-", i)`: the prefix and the decimal
text of the Go `int` `i`. Reading the digits back recovers `i`, so the names of
different shares differ, and none of them is `vault-root` or `vault-test`.
-/

namespace BankVaults

def unsealKeyForID (i : Int) : String := "vault-unseal-" ++ toString i

def rootTokenKey : String := "vault-root"

def testKey : String := "vault-test"

/-! ## Reading decimal digits back -/

def digitsValue (acc : Nat) (cs : List Char) : Nat :=
  cs.foldl (fun n c => n * 10 + (c.toNat - 48)) acc

theorem digitChar_value : ∀ d < 10, (Nat.digitChar d).toNat - 48 = d := by decide

theorem digitChar_ne_minus : ∀ d < 10, Nat.digitChar d ≠ '-' := by decide

theorem toDigitsCore_zero (b n : Nat) (ds : List Char) : Nat.toDigitsCore b 0 n ds = ds := rfl

theorem toDigitsCore_succ (b fuel n : Nat) (ds : List Char) :
    Nat.toDigitsCore b (fuel + 1) n ds =
      if n / b = 0 then Nat.digitChar (n % b) :: ds
      else Nat.toDigitsCore b fuel (n / b) (Nat.digitChar (n % b) :: ds) := rfl

theorem toDigitsCore_value (fuel n : Nat) (ds : List Char) (h : n < fuel) :
    digitsValue 0 (Nat.toDigitsCore 10 fuel n ds) = digitsValue n ds := by
  induction fuel generalizing n ds with
  | zero => omega
  | succ fuel ih =>
    have hd := digitChar_value (n % 10) (Nat.mod_lt _ (by omega))
    rw [toDigitsCore_succ]
    split
    · simp only [digitsValue, List.foldl_cons, hd]
      congr 1; omega
    · rw [ih (n / 10) _ (by omega)]
      simp only [digitsValue, List.foldl_cons, hd]
      congr 1; omega

theorem toDigitsCore_head (fuel n : Nat) (ds : List Char) (hds : ds.head? ≠ some '-')
    (h : 0 < fuel) : (Nat.toDigitsCore 10 fuel n ds).head? ≠ some '-' := by
  induction fuel generalizing n ds with
  | zero => omega
  | succ fuel ih =>
    have hd := digitChar_ne_minus (n % 10) (Nat.mod_lt _ (by omega))
    rw [toDigitsCore_succ]
    split
    · simpa using hd
    · cases fuel with
      | zero => simpa [toDigitsCore_zero] using hd
      | succ fuel => exact ih _ _ (by simpa using hd) (by omega)

theorem nat_repr_value (n : Nat) : digitsValue 0 (toString n).data = n := by
  show digitsValue 0 (Nat.toDigitsCore 10 (n + 1) n []) = n
  rw [toDigitsCore_value _ _ _ (by omega)]; rfl

theorem nat_repr_head (n : Nat) : (toString n).data.head? ≠ some '-' :=
  toDigitsCore_head (n + 1) n [] (by simp) (by omega)

theorem nat_repr_inj {m n : Nat} (h : toString m = toString n) : m = n := by
  rw [← nat_repr_value m, ← nat_repr_value n, h]

theorem int_repr_inj {i j : Int} (h : toString i = toString j) : i = j := by
  have cross : ∀ (m k : Nat), toString m ≠ "-" ++ toString k := fun m k e => by
    have := congrArg (fun s => s.data.head?) e
    simp only [String.data_append] at this
    exact nat_repr_head m (this.trans (by rfl))
  cases i with
  | ofNat m =>
    cases j with
    | ofNat n => exact congrArg _ (nat_repr_inj h)
    | negSucc n => exact absurd h (cross _ _)
  | negSucc m =>
    cases j with
    | ofNat n => exact absurd h.symm (cross _ _)
    | negSucc n =>
      change "-" ++ toString (m + 1) = "-" ++ toString (n + 1) at h
      have := congrArg String.data h
      simp only [String.data_append, List.append_cancel_left_eq] at this
      exact congrArg _ (Nat.succ.inj (nat_repr_inj (String.ext this)))

/-! ## The names -/

theorem unsealKeyForID_inj {i j : Int} (h : unsealKeyForID i = unsealKeyForID j) : i = j := by
  have := congrArg String.data h
  simp only [unsealKeyForID, String.data_append, List.append_cancel_left_eq] at this
  exact int_repr_inj (String.ext this)

@[simp] theorem unsealKeyForID_eq_iff {i j : Int} : unsealKeyForID i = unsealKeyForID j ↔ i = j :=
  ⟨unsealKeyForID_inj, congrArg _⟩

theorem unsealKeyForID_ne_rootTokenKey (i : Int) : unsealKeyForID i ≠ rootTokenKey := fun h => by
  have := congrArg (fun s => s.data.get? 6) h
  simp [unsealKeyForID, rootTokenKey] at this

theorem unsealKeyForID_ne_testKey (i : Int) : unsealKeyForID i ≠ testKey := fun h => by
  have := congrArg (fun s => s.data.get? 6) h
  simp [unsealKeyForID, testKey] at this

/-- Different Go `int`s, negative ones included, name different shares, and no share is
named `vault-root` or `vault-test`. -/
theorem unsealKeyForID_distinct :
    Function.Injective unsealKeyForID ∧ ∀ i, unsealKeyForID i ≠ rootTokenKey ∧ unsealKeyForID i ≠ testKey :=
  ⟨fun _ _ => unsealKeyForID_inj, fun i => ⟨unsealKeyForID_ne_rootTokenKey i, unsealKeyForID_ne_testKey i⟩⟩

end BankVaults
