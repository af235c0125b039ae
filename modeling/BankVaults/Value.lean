import Mathlib.Logic.Function.Basic

/-!
# Decoded configuration values

The declarative configuration reaches `vault.go` as Go `interface{}` values:
YAML decoding gives `map[interface{}]interface{}` for nested maps, JSON decoding
gives `map[string]interface{}`. A `float64` is kept as the shortest decimal that reads
back as it, `m * 10 ^ e`, which is what Go prints it from. `Value` keeps that distinction, because the code's
type assertions (`.(string)`, `.([]interface{})`, `.(map[interface{}]interface{})`)
depend on it. A Go map is an association list; the order of a `range` over it is
chosen by the runtime (`Prog.iterate`), not by the list.
-/

namespace BankVaults

inductive Value where
  | null
  | bool (b : Bool)
  | int (n : Int)
  | float (m e : Int)
  | str (s : String)
  | list (xs : List Value)
  | imap (kvs : List (Value × Value))
  | smap (kvs : List (String × Value))
  deriving Inhabited

/-- A Go `map[string]interface{}`. -/
abbrev GoMap := List (String × Value)

/-- Go's `m[k]`: the nil interface when `k` is absent. -/
def GoMap.get (m : GoMap) (k : String) : Value := (m.lookup k).getD .null

def GoMap.lookup? (m : GoMap) (k : String) : Option Value := m.lookup k

/-- Go's `m[k]` on a `map[interface{}]interface{}` with a string key. -/
def imapGet : List (Value × Value) → String → Value
  | [], _ => .null
  | (.str s, v) :: kvs, k => if s = k then v else imapGet kvs k
  | _ :: kvs, k => imapGet kvs k

/-! ## Type assertions -/

def Value.asString? : Value → Option String
  | .str s => some s
  | _ => none

def Value.asList? : Value → Option (List Value)
  | .list xs => some xs
  | _ => none

def Value.asIMap? : Value → Option (List (Value × Value))
  | .imap kvs => some kvs
  | _ => none

/-! ## The `cast` library

`cast.ToString`, `cast.ToStringMap` and `cast.ToStringMapString` never fail: what
they cannot convert becomes the empty value. A JSON text given where a map is
expected is not decoded here (it becomes the empty map). -/

/-! ## Printing a `float64`

`strconv` prints a float from its shortest decimal digits `ds` and the place `dp` of
the decimal point, `0.ds * 10 ^ dp`. -/

def zeros (n : Nat) : String := String.mk (List.replicate n '0')

def sigDigits (n : Nat) : String := String.mk ((toString n).data.reverse.dropWhile (· = '0')).reverse

/-- The `%f` layout: every digit, as many as `dp` before the point. -/
def floatF (ds : String) (dp : Int) : String :=
  if dp ≤ 0 then "0." ++ zeros dp.natAbs ++ ds
  else if ds.length ≤ dp.toNat then ds ++ zeros (dp.toNat - ds.length)
  else ds.take dp.toNat ++ "." ++ ds.drop dp.toNat

/-- The `%e` layout: one digit before the point, an exponent of at least two digits. -/
def floatE (ds : String) (exp : Int) : String :=
  ds.take 1 ++ (if ds.length ≤ 1 then "" else "." ++ ds.drop 1) ++ "e" ++
    (if exp < 0 then "-" else "+") ++ (if exp.natAbs < 10 then "0" else "") ++ toString exp.natAbs

/-- `strconv.FormatFloat(m * 10 ^ e, 'f', -1, 64)`. -/
def formatFloatF (m e : Int) : String :=
  if m = 0 then "0"
  else (if m < 0 then "-" else "") ++ floatF (sigDigits m.natAbs) ((toString m.natAbs).length + e)

/-- `strconv.FormatFloat(m * 10 ^ e, 'g', -1, 64)`, which `%v` prints: `%e` when the
exponent is below `-4` or at least `6`. -/
def formatFloatG (m e : Int) : String :=
  let dp : Int := (toString m.natAbs).length + e
  if m = 0 then "0"
  else (if m < 0 then "-" else "") ++
    if dp - 1 < -4 ∨ 6 ≤ dp - 1 then floatE (sigDigits m.natAbs) (dp - 1) else floatF (sigDigits m.natAbs) dp

def Value.castToString : Value → String
  | .str s => s
  | .int n => toString n
  | .float m e => formatFloatF m e
  | .bool b => toString b
  | _ => ""

def Value.castToStringMap : Value → GoMap
  | .smap kvs => kvs
  | .imap kvs => kvs.map fun kv => (kv.1.castToString, kv.2)
  | _ => []

def Value.castToStringMapString : Value → List (String × String)
  | .smap kvs => kvs.map fun kv => (kv.1, kv.2.castToString)
  | .imap kvs => kvs.map fun kv => (kv.1.castToString, kv.2.castToString)
  | _ => []

/-! ## Formatting

`sprint` is Go's `%v` (and `fmt.Sprint`), `fmtS` is `%s`, which marks values that
are not strings (`%!s(int=5)`, `%!s(float64=1.5)`). Maps are printed in list order. -/

mutual
def Value.sprint : Value → String
  | .null => "<nil>"
  | .bool b => toString b
  | .int n => toString n
  | .float m e => formatFloatG m e
  | .str s => s
  | .list xs => "[" ++ sprintList xs ++ "]"
  | .imap kvs => "map[" ++ sprintIMap kvs ++ "]"
  | .smap kvs => "map[" ++ sprintSMap kvs ++ "]"
def sprintList : List Value → String
  | [] => ""
  | [x] => x.sprint
  | x :: xs => x.sprint ++ " " ++ sprintList xs
def sprintIMap : List (Value × Value) → String
  | [] => ""
  | [(k, v)] => k.sprint ++ ":" ++ v.sprint
  | (k, v) :: kvs => k.sprint ++ ":" ++ v.sprint ++ " " ++ sprintIMap kvs
def sprintSMap : List (String × Value) → String
  | [] => ""
  | [(k, v)] => k ++ ":" ++ v.sprint
  | (k, v) :: kvs => k ++ ":" ++ v.sprint ++ " " ++ sprintSMap kvs
end

mutual
def Value.fmtS : Value → String
  | .null => "%!s(<nil>)"
  | .bool b => "%!s(bool=" ++ toString b ++ ")"
  | .int n => "%!s(int=" ++ toString n ++ ")"
  | .float m e => "%!s(float64=" ++ formatFloatG m e ++ ")"
  | .str s => s
  | .list xs => "[" ++ fmtSList xs ++ "]"
  | .imap kvs => "map[" ++ fmtSIMap kvs ++ "]"
  | .smap kvs => "map[" ++ fmtSSMap kvs ++ "]"
def fmtSList : List Value → String
  | [] => ""
  | [x] => x.fmtS
  | x :: xs => x.fmtS ++ " " ++ fmtSList xs
def fmtSIMap : List (Value × Value) → String
  | [] => ""
  | [(k, v)] => k.fmtS ++ ":" ++ v.fmtS
  | (k, v) :: kvs => k.fmtS ++ ":" ++ v.fmtS ++ " " ++ fmtSIMap kvs
def fmtSSMap : List (String × Value) → String
  | [] => ""
  | [(k, v)] => k ++ ":" ++ v.fmtS
  | (k, v) :: kvs => k ++ ":" ++ v.fmtS ++ " " ++ fmtSSMap kvs
end

@[simp] theorem sprint_str (s : String) : (Value.str s).sprint = s := by simp [Value.sprint]

@[simp] theorem fmtS_str (s : String) : (Value.str s).fmtS = s := by simp [Value.fmtS]

end BankVaults
