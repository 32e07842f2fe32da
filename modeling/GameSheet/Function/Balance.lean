import GameSheet.Arithmetic
import GameSheet.Function.Basic

/-!
# Functions of game balance

Combat, economy, stage and interpolation formulas. Curve charts, simulators and exports rely on their numbers, so
the order of the operations in each of them is part of its definition.
-/

namespace GameSheet.Balance

open Arithmetic

/-- The growth curves on which a value can scale with a level. -/
inductive Curve where
  | linear
  | exponential
  | logarithmic
  | quadratic
  | sigmoid
  deriving DecidableEq, Repr

/-- The curve that a name stands for, in any case of letters; an unknown name stands for the linear one. Only the
letters A to Z have to be folded: no other character has a lower-case form that occurs in these names. -/
def Curve.ofName (name : String) : Curve :=
  let lower := Text.lowerAscii name
  if lower = "exponential" then .exponential
  else if lower = "logarithmic" then .logarithmic
  else if lower = "quadratic" then .quadratic
  else if lower = "scurve" || lower = "s-curve" then .sigmoid
  else .linear

/-! ## Combat -/

/-- The value that `base` reaches at a level on a growth curve; a sigmoid rises towards `ceiling` around `middle`. -/
def scale (base level rate : Float) (curve : Curve := .linear) (ceiling : Float := 100.0)
    (middle : Float := 50.0) : Float :=
  match curve with
  | .exponential => base * power rate level
  | .logarithmic => base + rate * logarithm (larger 1.0 level)
  | .quadratic => base + rate * level * level
  | .sigmoid => base + divide ceiling (1.0 + exponential (-rate * (level - middle)))
  | .linear => base + level * rate

/-- Damage after armor. -/
def damage (attack defense : Float) (multiplier : Float := 1.0) : Float :=
  attack * divide 100.0 (100.0 + defense) * multiplier

/-- Expected damage per second. -/
def damagePerSecond (hit speed : Float) (criticalRate : Float := 0.0) (criticalDamage : Float := 2.0) : Float :=
  hit * (1.0 + criticalRate * (criticalDamage - 1.0)) * speed

/-- Seconds until a target is beaten; the last hit needs no pause after it. -/
def timeToKill (health hit speed : Float) : Float :=
  if hit ≤ 0.0 || speed ≤ 0.0 then infinity
  else (ceiling (health / hit) - 1.0) / speed

/-- Health that counts the effect of armor and of a damage reduction of at most 99 %. -/
def effectiveHealth (health defense : Float) (reduction : Float := 0.0) : Float :=
  health * (1.0 + defense / 100.0) / (1.0 - smaller reduction 0.99)

/-! ## Economy -/

/-- The drop chance: 100 luck doubles it, and each level of difference takes 5 % off, down to a tenth. -/
def dropRate (rate : Float) (luck : Float := 0.0) (levelDifference : Float := 0.0) : Float :=
  let luckFactor := 1.0 + luck / 100.0
  let levelFactor := larger 0.1 (1.0 - levelDifference * 0.05)
  smaller 1.0 (rate * luckFactor * levelFactor)

/-- The rate of a pull, raised from the soft pity on and certain at the hard one. -/
def pityRate (rate pull : Float) (soft : Float := 74.0) (hard : Float := 90.0) : Float :=
  if hard ≤ pull then 1.0
  else if pull < soft then rate
  else
    let bonus := (1.0 - rate) * divide (pull - soft) (hard - soft) * 0.5
    smaller 1.0 (rate + bonus)

/-- The cost of an upgrade, rounded down. -/
def upgradeCost (base level : Float) (rate : Float := 1.5) (curve : Curve := .exponential) : Float :=
  floor (scale base level rate curve)

/-- A value kept within two bounds. -/
def clamp (value low high : Float) : Float :=
  larger low (smaller high value)

/-- The probability of a success in so many tries. -/
def chance (success tries : Float) : Float :=
  1.0 - power (1.0 - clamp success 0.0 1.0) tries

/-- The expected number of tries until a success. -/
def expectedAttempts (rate : Float) : Float :=
  if rate ≤ 0.0 then infinity
  else if 1.0 ≤ rate then 1.0
  else 1.0 / rate

/-- Compound growth. -/
def compound (principal rate periods : Float) : Float :=
  principal * power (1.0 + rate) periods

/-! ## Stages -/

/-- The power of a wave of enemies. -/
def wavePower (base wave : Float) (rate : Float := 1.1) : Float :=
  base * power rate (wave - 1.0)

/-- The factor of elements that beat each other in a ring: 0 beats 1 beats 2 beats 0. -/
def elementFactor (attack defense : Float) (strong : Float := 1.5) (weak : Float := 0.5) : Float :=
  let delta := attack - defense
  if !delta.isFinite then 1.0
  else
    let turn := remainder (remainder delta 3.0 + 3.0) 3.0
    if turn == 1.0 then strong
    else if turn == 2.0 then weak
    else 1.0

/-- The factor of a combo, with a bound on the bonus. -/
def comboFactor (combo : Float) (base : Float := 1.0) (each : Float := 0.1) (bound : Float := 2.0) : Float :=
  base + smaller (combo * each) bound

/-! ## Interpolation and ratings -/

/-- The point at a fraction of the way, which is kept between 0 and 1. -/
def interpolate (start finish fraction : Float) : Float :=
  start + (finish - start) * clamp fraction 0.0 1.0

/-- The fraction of the way at which a value lies, kept between 0 and 1. -/
def interpolant (start finish value : Float) : Float :=
  if start == finish then 0.0 else clamp ((value - start) / (finish - start)) 0.0 1.0

/-- A value carried from one range to another. -/
def remap (value fromLow fromHigh toLow toHigh : Float) : Float :=
  interpolate toLow toHigh (interpolant fromLow fromHigh value)

/-- Returns that shrink past a soft cap and end at a hard one. -/
def diminishing (base value softCap : Float) (hardCap : Float := infinity) : Float :=
  if value ≤ softCap then base + value
  else
    let excess := value - softCap
    smaller (base + softCap + excess * (1.0 - divide excess (excess + softCap))) hardCap

/-- The stamina that came back after a time. -/
def staminaRegained (full duration elapsed : Float) : Float :=
  smaller full (divide full duration * elapsed)

/-- A ratio as stars, in half steps. -/
def starRating (value full : Float) (stars : Float := 5.0) : Float :=
  if full ≤ 0.0 then 0.0
  else floor (value / full * stars * 2.0 + 0.5) / 2.0

/-- The place of the last threshold that the value reaches, counted from 1; zero if it reaches none. -/
def tier (value : Float) (thresholds : List Float) : Float :=
  let places := (thresholds.zipIdx 1).filter fun (threshold, _) => threshold ≤ value
  match places.getLast? with
  | some (_, place) => Float.ofNat place
  | none => 0.0

/-! ## The functions as formulas call them -/

open Implementation

/-- A level scaling with its optional curve and bounds. -/
def scaleCall : Implementation
  | [.number base, .number level, .number rate] => .ok (scale base level rate)
  | [.number base, .number level, .number rate, .text curve] => .ok (scale base level rate (Curve.ofName curve))
  | [.number base, .number level, .number rate, .text curve, .number ceiling] =>
    .ok (scale base level rate (Curve.ofName curve) ceiling)
  | [.number base, .number level, .number rate, .text curve, .number ceiling, .number middle] =>
    .ok (scale base level rate (Curve.ofName curve) ceiling middle)
  | _ => .error .unsuited

/-- An upgrade cost with its optional rate and curve. -/
def costCall : Implementation
  | [.number base, .number level] => .ok (upgradeCost base level)
  | [.number base, .number level, .number rate] => .ok (upgradeCost base level rate)
  | [.number base, .number level, .number rate, .text curve] =>
    .ok (upgradeCost base level rate (Curve.ofName curve))
  | _ => .error .unsuited

/-- Combat functions. -/
def combat : List FunctionSpec := [
  ⟨"SCALE", some scaleCall, 3, some 6, "combat", "SCALE(base, level, rate, curveType, [max, mid])",
    "SCALE(100, 10, 1.5, \"exponential\")",
    "Level scaling on a linear/exponential/logarithmic/quadratic/scurve curve", [3]⟩,
  ⟨"DAMAGE", some (total fun
      | [a, d] => some (damage a d)
      | [a, d, m] => some (damage a d m)
      | _ => none), 2, some 3, "combat", "DAMAGE(atk, def, multiplier?)", "DAMAGE(150, 50)",
    "Damage after defense reduction", []⟩,
  ⟨"DPS", some (total fun
      | [h, s] => some (damagePerSecond h s)
      | [h, s, r] => some (damagePerSecond h s r)
      | [h, s, r, d] => some (damagePerSecond h s r d)
      | _ => none), 2, some 4, "combat", "DPS(damage, attackSpeed, critRate?, critDamage?)",
    "DPS(100, 2, 0.3, 2)", "Damage per second including crits", []⟩,
  ⟨"TTK", some (ternary timeToKill), 3, some 3, "combat", "TTK(targetHP, damage, attackSpeed)",
    "TTK(1000, 100, 2)", "Time to kill in seconds", []⟩,
  ⟨"EHP", some (total fun
      | [h, d] => some (effectiveHealth h d)
      | [h, d, r] => some (effectiveHealth h d r)
      | _ => none), 2, some 3, "combat", "EHP(hp, def, damageReduction?)", "EHP(1000, 50)",
    "Effective HP", []⟩]

/-- Economy functions. -/
def economy : List FunctionSpec := [
  ⟨"DROP_RATE", some (total fun
      | [r] => some (dropRate r)
      | [r, l] => some (dropRate r l)
      | [r, l, d] => some (dropRate r l d)
      | _ => none), 1, some 3, "economy", "DROP_RATE(baseRate, luck?, levelDiff?)", "DROP_RATE(0.1, 50, 5)",
    "Drop chance adjusted for luck and level difference", []⟩,
  ⟨"GACHA_PITY", some (total fun
      | [r, p] => some (pityRate r p)
      | [r, p, s] => some (pityRate r p s)
      | [r, p, s, h] => some (pityRate r p s h)
      | _ => none), 2, some 4, "economy", "GACHA_PITY(baseRate, currentPull, softPityStart?, hardPity?)",
    "GACHA_PITY(0.006, 75)", "Gacha rate with soft and hard pity", []⟩,
  ⟨"COST", some costCall, 2, some 4, "economy", "COST(baseCost, level, rate?, curveType?)",
    "COST(100, 5, 1.5)", "Upgrade cost (floored)", [3]⟩,
  ⟨"CHANCE", some (binary chance), 2, some 2, "economy", "CHANCE(baseChance, attempts)", "CHANCE(0.1, 10)",
    "Chance of at least one success over N attempts", []⟩,
  ⟨"EXPECTED_ATTEMPTS", some (unary expectedAttempts), 1, some 1, "economy", "EXPECTED_ATTEMPTS(successRate)",
    "EXPECTED_ATTEMPTS(0.01)", "Average attempts until the first success", []⟩,
  ⟨"COMPOUND", some (ternary compound), 3, some 3, "economy", "COMPOUND(principal, rate, periods)",
    "COMPOUND(1000, 0.1, 10)", "Compound growth", []⟩]

/-- Stage functions. -/
def stage : List FunctionSpec := [
  ⟨"WAVE_POWER", some (total fun
      | [b, w] => some (wavePower b w)
      | [b, w, r] => some (wavePower b w r)
      | _ => none), 2, some 3, "stage", "WAVE_POWER(basePower, wave, rate?)", "WAVE_POWER(100, 10, 1.1)",
    "Enemy power for a wave or stage", []⟩,
  ⟨"ELEMENT_MULT", some (total fun
      | [a, d] => some (elementFactor a d)
      | [a, d, s] => some (elementFactor a d s)
      | [a, d, s, w] => some (elementFactor a d s w)
      | _ => none), 2, some 4, "stage", "ELEMENT_MULT(atkElement, defElement, strong?, weak?)",
    "ELEMENT_MULT(0, 1, 1.5, 0.5)", "Elemental affinity multiplier", []⟩,
  ⟨"COMBO_MULT", some (total fun
      | [c] => some (comboFactor c)
      | [c, b] => some (comboFactor c b)
      | [c, b, e] => some (comboFactor c b e)
      | [c, b, e, m] => some (comboFactor c b e m)
      | _ => none), 1, some 4, "stage", "COMBO_MULT(comboCount, baseMult?, perCombo?, maxBonus?)",
    "COMBO_MULT(10, 1, 0.1, 2)", "Combo damage multiplier", []⟩]

/-- Interpolation and rating functions. -/
def interpolation : List FunctionSpec := [
  ⟨"CLAMP", some (ternary clamp), 3, some 3, "util", "CLAMP(value, min, max)", "CLAMP(150, 0, 100)",
    "Limit a value to a range", []⟩,
  ⟨"LERP", some (ternary interpolate), 3, some 3, "util", "LERP(start, end, t)", "LERP(0, 100, 0.5)",
    "Linear interpolation", []⟩,
  ⟨"INVERSE_LERP", some (ternary interpolant), 3, some 3, "util", "INVERSE_LERP(start, end, value)",
    "INVERSE_LERP(0, 100, 25)", "Position of a value within a range (0-1)", []⟩,
  ⟨"REMAP", some (total fun
      | [v, fl, fh, tl, th] => some (remap v fl fh tl th)
      | _ => none), 5, some 5, "util", "REMAP(value, inMin, inMax, outMin, outMax)", "REMAP(50, 0, 100, 0, 1)",
    "Map a value from one range onto another", []⟩,
  ⟨"DIMINISHING", some (total fun
      | [b, v, s] => some (diminishing b v s)
      | [b, v, s, h] => some (diminishing b v s h)
      | _ => none), 3, some 4, "util", "DIMINISHING(base, input, softcap, hardcap?)",
    "DIMINISHING(0, 150, 100, 200)", "Diminishing returns past a softcap", []⟩,
  ⟨"STAMINA_REGEN", some (ternary staminaRegained), 3, some 3, "util",
    "STAMINA_REGEN(maxStamina, regenTime, elapsed)", "STAMINA_REGEN(100, 480, 60)",
    "Stamina regenerated after elapsed minutes", []⟩,
  ⟨"STAR_RATING", some (total fun
      | [v, m] => some (starRating v m)
      | [v, m, s] => some (starRating v m s)
      | _ => none), 2, some 3, "util", "STAR_RATING(value, maxValue, maxStars?)", "STAR_RATING(80, 100, 5)",
    "Star rating in half-star steps", []⟩,
  ⟨"TIER_INDEX", some (total fun
      | value :: thresholds => some (tier value thresholds)
      | [] => none), 1, none, "util", "TIER_INDEX(value, ...thresholds)",
    "TIER_INDEX(1500, 1000, 1200, 1400, 1600)", "Tier reached by a value", []⟩]

/-- The reference to a cell of another sheet, a special form of the parser. -/
def reference : FunctionSpec :=
  ⟨"REF", none, 3, some 3, "ref", "REF(sheetName, rowId, columnName)", "REF(\"Monsters\", \"goblin\", \"HP\")",
    "Value of a cell in another sheet", [0, 1, 2]⟩

/-- All functions of game balance. -/
def functions : List FunctionSpec :=
  combat ++ economy ++ stage ++ interpolation ++ [reference]

end GameSheet.Balance
