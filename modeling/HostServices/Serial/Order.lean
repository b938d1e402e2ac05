import HostServices.Lib.Shuffle
import HostServices.Serial.Enumerate

/-!
# The order of the serial devices (`discover.rs` of `inverter-monitoring` and `bms-monitoring`)

Both programs try the serial devices that are there in an order of their own: the BMS is looked
for in a shuffled list, the inverter first behind the port where it was last. The two files share
the shuffle.

- `shuffle`: Fisher-Yates over xorshift;
- `Inverter.order`, `Bms.order`: the source's functions;
- `order_loses_nothing`: every device is tried once, the remembered ones first.
-/

namespace HostServices

open HostServices.Lib

/-! ## The shuffle -/

namespace Serial

/-- The step of the generator. -/
def xorshift (state : UInt64) : UInt64 :=
  let state := state ^^^ (state <<< 13)
  let state := state ^^^ (state >>> 7)
  state ^^^ (state <<< 17)

/-- `(next() % (index as u64 + 1)) as usize`. A list is shorter than `2^64`: the sum does not
wrap. -/
def pick (index : Nat) (state : UInt64) : Nat × UInt64 :=
  let state := xorshift state
  (state.toNat % (index + 1), state)

/-- `shuffle`: each place, from the last down, is swapped with one drawn at or below it. -/
def shuffle {α : Type} (items : List α) (seed : UInt64) : Except Stop (List α) :=
  swapDown pick (items.length - 1) (seed ||| 1) items

/-- A shuffle loses nothing. -/
theorem shuffle_perm {α : Type} (items : List α) (seed : UInt64) :
    ∃ shuffled, shuffle items seed = .ok shuffled ∧ shuffled.Perm items := by
  refine swapDown_perm (fun index state => ?_) (Nat.le_refl _) _
  exact Nat.le_of_lt_succ (Nat.mod_lt _ (Nat.succ_pos index))

end Serial

/-! ## The orders -/

/-- The remembered device first, then the rest shuffled. -/
def Inverter.order (candidates : List Candidate) (remembered : Option String) (seed : UInt64) :
    Except Stop (List Candidate) := do
  let (first, rest) := candidates.partition fun candidate => some candidate.pathId = remembered
  let shuffled ← Serial.shuffle rest seed
  .ok (first ++ shuffled)

/-- `order` of bms-monitoring. -/
def Bms.order (candidates : List Candidate) (seed : UInt64) : Except Stop (List Candidate) :=
  Serial.shuffle candidates seed

theorem Inverter.filter_ne (candidates : List Candidate) (remembered : Option String) :
    candidates.filter (fun c => some c.pathId ≠ remembered)
      = candidates.filter fun c => !decide (some c.pathId = remembered) :=
  List.filter_congr fun _ _ => decide_not

/-- What the inverter's order is made of. -/
theorem Inverter.order_eq (candidates : List Candidate) (remembered : Option String)
    (seed : UInt64) :
    ∃ rest, order candidates remembered seed
        = .ok (candidates.filter (fun c => some c.pathId = remembered) ++ rest) ∧
      rest.Perm (candidates.filter fun c => some c.pathId ≠ remembered) := by
  obtain ⟨rest, hshuffle, hperm⟩ := Serial.shuffle_perm
    (candidates.filter fun c => some c.pathId ≠ remembered) seed
  refine ⟨rest, ?_, hperm⟩
  rw [order, List.partition_eq_filter_filter]
  refine bind_eq_ok.mpr ⟨rest, ?_, rfl⟩
  rw [← hshuffle, filter_ne]
  rfl

/-- **Nothing is lost by the order and nothing is added**: neither shuffle panics, and both
orders are the candidates in another order; the inverter's begins with the remembered ones, as
they stood, and goes on with the others. -/
theorem order_loses_nothing :
    (∀ (candidates : List Inverter.Candidate) (remembered : Option String) (seed : UInt64),
      ∃ ordered, Inverter.order candidates remembered seed = .ok ordered ∧
        ordered.Perm candidates ∧
        ∃ rest,
          ordered = candidates.filter (fun c => some c.pathId = remembered) ++ rest ∧
          rest.Perm (candidates.filter fun c => some c.pathId ≠ remembered)) ∧
    ∀ (candidates : List Bms.Candidate) (seed : UInt64),
      ∃ ordered, Bms.order candidates seed = .ok ordered ∧ ordered.Perm candidates := by
  constructor
  · intro candidates remembered seed
    obtain ⟨rest, horder, hperm⟩ := Inverter.order_eq candidates remembered seed
    refine ⟨_, horder, (hperm.append_left _).trans ?_, rest, rfl, hperm⟩
    rw [Inverter.filter_ne]
    exact List.filter_append_perm _ candidates
  · intro candidates seed
    exact Serial.shuffle_perm candidates seed

end HostServices
