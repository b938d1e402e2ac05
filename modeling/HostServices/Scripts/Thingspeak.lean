import HostServices.Lib.Intervals

/-!
# The ThingSpeak reporter's windows (`modules/thingspeak.nix`)

A run of the script reports the newest values of one window. The window ends at the last
multiple of the interval, as seconds of the Unix clock go, and is one interval long. The timer
starts the next run an interval after this one started, or up to `AccuracySec` later.

- `window`: the window of a run, as the bounds of its read requests;
- `Timely`: the timer;
- `window_follows_iff`: when the window of a run follows on from that of the run before it;
- `windows_tile_iff`: when the windows of the runs tile the timeline.

A start is in nanoseconds since the epoch, which is also the unit of the bounds.
-/

namespace HostServices.Scripts.Thingspeak

open HostServices.Lib

/-- The nanoseconds of a second: the nine zeros that turn a bound into nanoseconds. -/
def second : Nat := 1000000000

/-- `date -u +%s` in a run with that start. -/
def now (start : Nat) : Nat := start / second

/-- `end` of a run, a grid point: the current second truncated to the interval. -/
def gridPoint (interval now : Nat) : Int := (now : Int) - (now % interval : Nat)

/-- The `from` and `to` of the read requests, of which `to` is exclusive. -/
def window (interval start : Nat) : Int × Int :=
  let stop := gridPoint interval (now start)
  let start := stop - interval
  (start * second, stop * second)

/-- The starts the timer makes, with `OnUnitActiveSec` the interval and `AccuracySec` a second. -/
def Timely (interval : Nat) (starts : List Nat) : Prop :=
  starts.IsChain fun s t => s + interval * second ≤ t ∧ t ≤ s + interval * second + second

/-- No grid point is jumped between two starts. Where the clock's seconds of the two are one more
than the interval apart, the first start is not in the last second before a grid point. -/
def KeepsUp (interval s t : Nat) : Prop :=
  now t = now s + interval + 1 → (now s + 1) % interval ≠ 0

theorem gridPoint_eq (interval now : Nat) :
    gridPoint interval now = (interval * (now / interval) : Nat) := by
  have h := Nat.div_add_mod now interval
  rw [gridPoint]
  omega

/-- A window does not end before it begins. -/
theorem window_le (interval start : Nat) :
    (window interval start).1 ≤ (window interval start).2 := by
  apply Int.mul_le_mul_of_nonneg_right
  · exact Int.sub_le_self _ (Int.natCast_nonneg interval)
  · exact Int.natCast_nonneg second

/-- The clock's seconds of two starts in a row. -/
theorem now_next {interval s t : Nat} (hle : s + interval * second ≤ t)
    (hge : t ≤ s + interval * second + second) :
    now t = now s + interval ∨ now t = now s + interval + 1 := by
  have hlow : now s + interval ≤ now t := by
    rw [now, now, ← Nat.add_mul_div_right s interval (by decide)]
    exact Nat.div_le_div_right hle
  have hhigh : now t ≤ now s + interval + 1 := by
    rw [now, now, ← Nat.add_mul_div_right s interval (by decide),
      ← Nat.add_div_right _ (by decide)]
    exact Nat.div_le_div_right hge
  omega

/-- A window begins where the one before it ends, just if the run keeps up. -/
theorem window_follows_iff {interval s t : Nat} (hpos : 0 < interval)
    (hle : s + interval * second ≤ t) (hge : t ≤ s + interval * second + second) :
    (window interval t).1 = (window interval s).2 ↔ KeepsUp interval s t := by
  have hgrid : (window interval t).1 = (window interval s).2 ↔
      now t / interval = now s / interval + 1 := by
    have hcancel : (window interval t).1 = (window interval s).2 ↔
        gridPoint interval (now t) - interval = gridPoint interval (now s) :=
      Int.mul_eq_mul_right_iff (by decide)
    rw [hcancel, gridPoint_eq, gridPoint_eq, ← Nat.mul_right_inj hpos.ne', Nat.mul_add, Nat.mul_one]
    omega
  rw [hgrid, KeepsUp]
  rcases now_next hle hge with hnow | hnow
  · -- an interval later the next grid point is exactly one further
    have hdiv : now t / interval = now s / interval + 1 := by
      rw [hnow, Nat.add_div_right _ hpos]
    constructor
    · intro _ hjump
      omega
    · intro _
      exact hdiv
  · have hdiv : now t / interval = (now s + 1) / interval + 1 := by
      rw [hnow, Nat.add_right_comm, Nat.add_div_right _ hpos]
    rw [hdiv]
    constructor
    · intro h _ hmod
      have hsucc := Nat.succ_div_of_mod_eq_zero hmod
      omega
    · intro h
      rw [Nat.succ_div_of_mod_ne_zero (h hnow)]

/-- The windows of timely runs tile the timeline exactly when no grid point is jumped. -/
theorem windows_tile_iff {interval : Nat} (hpos : 0 < interval) {starts : List Nat}
    (h : Timely interval starts) :
    Tiles (starts.map (window interval)) ↔ starts.IsChain (KeepsUp interval) := by
  have hvalid : ∀ w ∈ starts.map (window interval), w.1 ≤ w.2 := by
    intro w hw
    obtain ⟨start, -, rfl⟩ := List.mem_map.mp hw
    exact window_le interval start
  rw [Timely, List.isChain_iff_getElem] at h
  rw [tiles_iff_consecutive hvalid, Consecutive, List.isChain_map, List.isChain_iff_getElem,
    List.isChain_iff_getElem]
  constructor
  · intro hchain i hi
    exact (window_follows_iff hpos (h i hi).1 (h i hi).2).mp (hchain i hi)
  · intro hchain i hi
    exact (window_follows_iff hpos (h i hi).1 (h i hi).2).mpr (hchain i hi)

theorem windows_tile_minutes :
    Timely 60 [0, 60000000000, 120500000000] ∧
      Tiles ([0, 60000000000, 120500000000].map (window 60)) := by
  have h : Timely 60 [0, 60000000000, 120500000000] := by
    simp [Timely, second]
  refine ⟨h, (windows_tile_iff (by decide) h).mpr ?_⟩
  simp [KeepsUp, now, second]

/-- A run that starts late in the last second of a minute, and the next one a minute and 600 ms
later: the window of the minute in between is read by neither. -/
theorem windows_skip_a_minute :
    ¬ ∀ interval starts, 0 < interval → Timely interval starts →
      Tiles (starts.map (window interval)) := by
  intro h
  have htimely : Timely 60 [59900000000, 120500000000] := by
    simp [Timely, second]
  have hskip : (window 60 120500000000).1 = (window 60 59900000000).2 := by
    have hconsecutive := (h 60 [59900000000, 120500000000] (by decide) htimely).consecutive
    simpa [Consecutive] using hconsecutive
  revert hskip
  decide

end HostServices.Scripts.Thingspeak
