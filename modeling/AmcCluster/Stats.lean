import AmcCluster.Fold
import Mathlib.Data.Rat.Defs

/-! The untyped stats maps of package `common`. That package is not among the
modelled sources, so its values, accessors and key-wise aggregation follow the
spec's account of them (a tagged value with typed accessors and a numeric sum). -/

namespace Amc.Common

/-- Modelled from the spec: the dynamic values of a `common.Stats` map. `float` is a
finite `float64`, which the modelled code only compares and adds; `pct` is the
`{"node", "value"}` record that `NamespaceInfo` stores under `least_available_pct`. -/
inductive Value where
  | int (n : Int)
  | float (x : ℚ)
  | str (s : String)
  | pct (node : Option String) (value : Option ℚ)
  deriving DecidableEq, Repr

namespace Value

/-- Modelled from the spec: the conversion of `Stats.TryInt`; a float is truncated as
Go's `int64(f)`. -/
def toInt (d : Int) : Option Value → Int
  | some (.int n) => n
  | some (.float x) => x.num.tdiv x.den
  | _ => d

/-- Modelled from the spec: the conversion of `Stats.TryFloat`. -/
def toFloat (d : ℚ) : Option Value → ℚ
  | some (.float x) => x
  | some (.int n) => n
  | _ => d

def combine (cur : Option Value) : Option Value → Option Value
  | some (.int n) => some (.int (toInt 0 cur + n))
  | some (.float x) => some (.float (toFloat 0 cur + x))
  | _ => cur

end Value

/-- Modelled from the spec: `common.Stats`, a Go map from stat names to values. -/
abbrev Stats := AList (fun _ : String => Value)

namespace Stats

/-- Modelled from the spec: `Stats.TryInt`. -/
def tryInt (s : Stats) (k : String) (d : Int) : Int := Value.toInt d (s.lookup k)

/-- Modelled from the spec: `Stats.TryFloat`. -/
def tryFloat (s : Stats) (k : String) (d : ℚ) : ℚ := Value.toFloat d (s.lookup k)

def aggregateKey (acc : Stats) (k : String) : Value → Stats
  | .int n => acc.insert k (.int (acc.tryInt k 0 + n))
  | .float x => acc.insert k (.float (acc.tryFloat k 0 + x))
  | _ => acc

/-- Modelled from the spec: `Stats.AggregateStats`, the key-wise numeric sum of `other`
into `s`. -/
def aggregateStats (s other : Stats) : Stats :=
  other.foldl aggregateKey s

theorem lookup_aggregateKey_ne (acc : Stats) (k : String) (v : Value) (k' : String)
    (h : k' ≠ k) : (aggregateKey acc k v).lookup k' = acc.lookup k' := by
  cases v <;> simp only [aggregateKey, AList.lookup_insert_ne h]

theorem lookup_aggregateKey_self (acc : Stats) (k : String) (v : Value) :
    (aggregateKey acc k v).lookup k = Value.combine (acc.lookup k) (some v) := by
  cases v <;> simp only [aggregateKey, Value.combine, tryInt, tryFloat, AList.lookup_insert]

theorem lookup_aggregateStats (s other : Stats) (k : String) :
    (aggregateStats s other).lookup k = Value.combine (s.lookup k) (other.lookup k) := by
  have h := lookup_foldl_keywise aggregateKey (fun o v => Value.combine o (some v))
    lookup_aggregateKey_ne lookup_aggregateKey_self other.entries other.nodupKeys s k
  rw [aggregateStats, AList.foldl, h]
  change _ = Value.combine _ (other.entries.dlookup k)
  cases other.entries.dlookup k <;> rfl

theorem tryInt_aggregateStats {s other : Stats} {k : String} {n : Int}
    (h : other.lookup k = some (.int n)) :
    (aggregateStats s other).tryInt k 0 = s.tryInt k 0 + n := by
  simp only [tryInt, lookup_aggregateStats, h, Value.combine, Value.toInt]

end Stats

/-- Modelled from the spec: `common.Comma`, an integer with a separator between
groups of three digits. -/
def comma (v : Int) (sep : String) : String :=
  let digits := (toString v.natAbs).toList.reverse
  let grouped := digits.enum.foldr (fun (i, d) acc =>
    if i ≠ 0 ∧ i % 3 = 0 then acc ++ sep.toList.reverse ++ [d] else acc ++ [d]) []
  (if v < 0 then "-" else "") ++ String.mk grouped.reverse

end Amc.Common
