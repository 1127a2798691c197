import Reckoner.Decimal.Rounded
import Reckoner.Text.Paint

/-!
The figures of a cache: how its look-ups ended, what it lost by itself, and how full it is.
-/

namespace Reckoner.Cache

structure Tally where
  hits : Nat
  misses : Nat
  evictions : Nat
  expirations : Nat
  deriving DecidableEq

def Tally.zero : Tally := ⟨0, 0, 0, 0⟩

def Tally.hit (tally : Tally) : Tally :=
  { tally with hits := tally.hits + 1 }

def Tally.miss (tally : Tally) : Tally :=
  { tally with misses := tally.misses + 1 }

def Tally.evict (tally : Tally) : Tally :=
  { tally with evictions := tally.evictions + 1 }

def Tally.expire (tally : Tally) : Tally :=
  { tally with expirations := tally.expirations + 1, misses := tally.misses + 1 }

structure Stats where
  tally : Tally
  size : Nat
  capacity : Nat
  deriving DecidableEq

namespace Stats

open Reckoner.Decimal

def hitRate (stats : Stats) : Float :=
  let lookups := stats.tally.hits + stats.tally.misses
  if lookups = 0 then 0.0 else ofWord stats.tally.hits / ofWord lookups

def display (coloured : Bool) (stats : Stats) : String :=
  let label := Text.paint coloured .cyan
  label "size" ++ " " ++ toString stats.size ++ "/" ++ toString stats.capacity ++ "  " ++
    label "hits" ++ " " ++ toString stats.tally.hits ++ "  " ++
    label "misses" ++ " " ++ toString stats.tally.misses ++ "  " ++
    label "evictions" ++ " " ++ toString stats.tally.evictions ++ "  " ++
    label "hit rate" ++ " " ++ fixedText 1 (stats.hitRate * 100.0) ++ "%"

def outline (stats : Stats) : String :=
  "CacheStats \x7b hits: " ++ toString stats.tally.hits ++ ", misses: " ++
    toString stats.tally.misses ++ ", evictions: " ++ toString stats.tally.evictions ++
    ", expirations: " ++ toString stats.tally.expirations ++ ", size: " ++ toString stats.size ++
    ", capacity: " ++ toString stats.capacity ++ " \x7d"

end Stats

end Reckoner.Cache
