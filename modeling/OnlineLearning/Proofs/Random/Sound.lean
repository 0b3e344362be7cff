import OnlineLearning.Random.Source

/-!
# Sources that can be drawn from

A source is sound up to a limit if it starts from every seed that is not negative, and draws below every positive
bound within the limit, from whatever state. That a draw is below its bound is part of what it is. The generator
is sound up to its own limit (`Generator.sound`).
-/

namespace OnlineLearning.Random

/-- A source that starts from all seeds but negative ones, and draws below all positive bounds within a limit. -/
structure Source.Sound (source : Source) (limit : Int) : Prop where
  starts : ∀ seed, 0 ≤ seed → ∃ s, source.start seed = .ok s
  draws : ∀ bound s, 0 < bound → bound ≤ limit → ∃ v s', source.below bound s = .ok (v, s')

theorem Generator.sound : source.Sound limit where
  starts seed hseed := ⟨ofSeed seed.toNat, if_neg (Int.not_lt.mpr hseed)⟩
  draws bound s hpos hlimit := by
    refine ⟨_, _, (dif_neg (Int.not_le.mpr hpos)).trans (if_neg (Int.not_lt.mpr hlimit))⟩

end OnlineLearning.Random
