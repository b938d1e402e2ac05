import Mathlib.Algebra.GroupWithZero.Nat
import HostServices.Bms.Framing

/-!
# What the framer is for: a greedy leftmost scan

The framer is an incremental machine with four outcomes. Seen from the whole
stream it computes something much simpler, stated here over positions of the
stream and without any buffer: go from header to header, reject the ones whose
300 bytes do not sum up, emit the first that does and continue behind it, and
stop at the first header whose 300 bytes have not all arrived.

- `GreedyScan s cur acc rej`: the scan of `s` from position `cur` accepts the
  frames at `acc` and rejects the headers at `rej`;
- `GreedyScan.unique`: the scan is a function of the stream;
- `GreedyScan.mem_or_overlapped`: a valid frame is emitted, or overlapped by
  one that is;
- `run_greedyScan`: the reference scanner, hence the reader, computes it.
-/

namespace HostServices.Bms

open HostServices.Lib

/-- All 300 bytes of the frame at `p` have arrived. -/
def Available (s : List UInt8) (p : Nat) : Prop := p + 300 ≤ s.length

/-- Byte `p + 299` is the 8-bit sum of bytes `p .. p + 298`. -/
def SumMatches (s : List UInt8) (p : Nat) : Prop :=
  (((s.drop p).take 299).map UInt8.toNat).sum % 256 = (s.getD (p + 299) 0).toNat

/-- A header whose 300 bytes are there and do not sum up. -/
def Rejected (s : List UInt8) (p : Nat) : Prop := Available s p ∧ ¬ SumMatches s p

/-- The positions in `lo .. hi` at which the header bytes occur. -/
def headerPositions (s : List UInt8) (lo hi : Nat) : List Nat :=
  (List.range' lo (hi - lo)).filter fun p => decide (HeaderAt s p)

/-- The frame at position `p` of the stream. -/
def frameAt (s : List UInt8) (p : Nat) : Frame :=
  { code := s.getD (p + 4) 0, data := (s.drop p).take 300 }

/-- The greedy leftmost scan of `s` from `cur`: the positions of the frames it
accepts, and of the headers it rejects. -/
inductive GreedyScan (s : List UInt8) : Nat → List Nat → List Nat → Prop
  | emit {cur p : Nat} {acc rej : List Nat} :
      cur ≤ p → HeaderAt s p → Available s p → SumMatches s p →
      (∀ q, cur ≤ q → q < p → HeaderAt s q → Rejected s q) →
      GreedyScan s (p + 300) acc rej →
      GreedyScan s cur (p :: acc) (headerPositions s cur p ++ rej)
  | stop {cur e : Nat} :
      cur ≤ e → (∀ q, cur ≤ q → q < e → HeaderAt s q → Rejected s q) →
      (s.length ≤ e ∨ (HeaderAt s e ∧ ¬ Available s e)) →
      GreedyScan s cur [] (headerPositions s cur e)

/-! ## Header positions -/

theorem headerPositions_self (s : List UInt8) (p : Nat) : headerPositions s p p = [] := by
  simp [headerPositions]

theorem headerPositions_cons {s : List UInt8} {lo hi : Nat} (h : lo < hi) :
    headerPositions s lo hi =
      (if HeaderAt s lo then [lo] else []) ++ headerPositions s (lo + 1) hi := by
  have hlen : hi - lo = (hi - (lo + 1)) + 1 := by omega
  rw [headerPositions, hlen, List.range'_succ, List.filter_cons]
  by_cases hat : HeaderAt s lo
  · rw [if_pos (by simpa using hat), if_pos hat]
    rfl
  · rw [if_neg (by simpa using hat), if_neg hat]
    rfl

/-- No header starts beyond the end of the stream. -/
theorem headerPositions_ext {s : List UInt8} {lo e e' : Nat} (h : s.length ≤ e)
    (h' : s.length ≤ e') : headerPositions s lo e = headerPositions s lo e' := by
  have hpast : ∀ n, s.length ≤ n → ∀ k,
      headerPositions s lo (n + k) = headerPositions s lo n := by
    intro n hn k
    by_cases hlo : lo ≤ n
    · rw [headerPositions, headerPositions,
        show n + k - lo = (n - lo) + k from by omega, ← List.range'_append,
        List.filter_append, Nat.one_mul, Nat.add_sub_cancel' hlo]
      have hnil : (List.range' n k).filter (fun p => decide (HeaderAt s p)) = [] := by
        refine List.filter_eq_nil_iff.mpr fun p hp hat => ?_
        have hle := (of_decide_eq_true hat).le
        have hge := (List.mem_range'_1.mp hp).1
        omega
      rw [hnil, List.append_nil]
    · have hnil : ∀ m, headerPositions s lo m = [] := by
        intro m
        refine List.filter_eq_nil_iff.mpr fun p hp hat => ?_
        have hle := (of_decide_eq_true hat).le
        have hge := (List.mem_range'_1.mp hp).1
        omega
      rw [hnil, hnil]
  have hs := hpast s.length (Nat.le_refl _)
  rw [show e = s.length + (e - s.length) by omega,
    show e' = s.length + (e' - s.length) by omega, hs, hs]

/-! ## The scan is a function of the stream -/

/-- Extending a scan backwards over a position without a header. -/
theorem GreedyScan.skip {s : List UInt8} {cur : Nat} {acc rej : List Nat}
    (h : GreedyScan s (cur + 1) acc rej) (hno : ¬ HeaderAt s cur) :
    GreedyScan s cur acc rej := by
  have hext : ∀ {e}, (∀ q, cur + 1 ≤ q → q < e → HeaderAt s q → Rejected s q) →
      ∀ q, cur ≤ q → q < e → HeaderAt s q → Rejected s q := by
    intro e hrej q hq hqe hat
    rcases Nat.eq_or_lt_of_le hq with rfl | hlt
    · exact absurd hat hno
    · exact hrej q hlt hqe hat
  cases h with
  | @emit _ p _ rej' hle hat hav hsum hrej hrest =>
    have hpos := headerPositions_cons (s := s) (show cur < p by omega)
    rw [if_neg hno, List.nil_append] at hpos
    rw [← hpos]
    exact .emit (by omega) hat hav hsum (hext hrej) hrest
  | @stop _ e hle hrej hend =>
    have hpos := headerPositions_cons (s := s) (show cur < e by omega)
    rw [if_neg hno, List.nil_append] at hpos
    rw [← hpos]
    exact .stop (by omega) (hext hrej) hend

/-- Extending a scan backwards over a rejected header. -/
theorem GreedyScan.reject {s : List UInt8} {cur : Nat} {acc rej : List Nat}
    (h : GreedyScan s (cur + 1) acc rej) (hat₀ : HeaderAt s cur)
    (hrej₀ : Rejected s cur) : GreedyScan s cur acc (cur :: rej) := by
  have hext : ∀ {e}, (∀ q, cur + 1 ≤ q → q < e → HeaderAt s q → Rejected s q) →
      ∀ q, cur ≤ q → q < e → HeaderAt s q → Rejected s q := by
    intro e hrej q hq hqe hat
    rcases Nat.eq_or_lt_of_le hq with rfl | hlt
    · exact hrej₀
    · exact hrej q hlt hqe hat
  cases h with
  | @emit _ p _ rej' hle hat hav hsum hrej hrest =>
    have hpos := headerPositions_cons (s := s) (show cur < p by omega)
    rw [if_pos hat₀, List.singleton_append] at hpos
    rw [← List.cons_append, ← hpos]
    exact .emit (by omega) hat hav hsum (hext hrej) hrest
  | @stop _ e hle hrej hend =>
    have hpos := headerPositions_cons (s := s) (show cur < e by omega)
    rw [if_pos hat₀, List.singleton_append] at hpos
    rw [← hpos]
    exact .stop (by omega) (hext hrej) hend

/-- Where a scan accepts next, no scan from the same position stops before. -/
theorem not_stop_of_emit {s : List UInt8} {cur p e : Nat} (hle : cur ≤ p)
    (hat : HeaderAt s p) (hav : Available s p) (hsum : SumMatches s p)
    (hbefore : ∀ q, cur ≤ q → q < p → HeaderAt s q → Rejected s q)
    (hcur : cur ≤ e) (hrej : ∀ q, cur ≤ q → q < e → HeaderAt s q → Rejected s q)
    (hend : s.length ≤ e ∨ (HeaderAt s e ∧ ¬ Available s e)) : False := by
  rcases Nat.lt_or_ge p e with hpe | hpe
  · exact (hrej p hle hpe hat).2 hsum
  · rcases hend with hend | ⟨hate, hshort⟩
    · unfold Available at hav
      omega
    · rcases Nat.eq_or_lt_of_le hpe with rfl | hlt
      · exact hshort hav
      · exact hshort (hbefore e hcur hlt hate).1

/-- A stream has one greedy scan. -/
theorem GreedyScan.unique {s : List UInt8} {cur : Nat} {acc acc' rej rej' : List Nat}
    (h : GreedyScan s cur acc rej) (h' : GreedyScan s cur acc' rej') :
    acc = acc' ∧ rej = rej' := by
  induction h generalizing acc' rej' with
  | @emit cur p acc rej hle hat hav hsum hbefore _ ih =>
    cases h' with
    | @emit _ p' _ _ hle' hat' _ hsum' hbefore' hrest' =>
      have hp : p = p' := by
        rcases Nat.lt_trichotomy p p' with hlt | heq | hgt
        · exact absurd hsum (hbefore' p hle hlt hat).2
        · exact heq
        · exact absurd hsum' (hbefore p' hle' hgt hat').2
      subst hp
      obtain ⟨rfl, rfl⟩ := ih hrest'
      exact ⟨rfl, rfl⟩
    | stop hcur hrej hend =>
      exact (not_stop_of_emit hle hat hav hsum hbefore hcur hrej hend).elim
  | @stop cur e hcur hrej hend =>
    cases h' with
    | emit hle hat hav hsum hbefore _ =>
      exact (not_stop_of_emit hle hat hav hsum hbefore hcur hrej hend).elim
    | @stop _ e' hcur' hrej' hend' =>
      refine ⟨rfl, ?_⟩
      rcases hend with hend | ⟨hat, hshort⟩ <;> rcases hend' with hend' | ⟨hat', hshort'⟩
      · exact headerPositions_ext hend hend'
      · have := hat'.le
        exact absurd (hrej e' hcur' (by omega) hat').1 hshort'
      · have := hat.le
        exact absurd (hrej' e hcur (by omega) hat).1 hshort
      · rcases Nat.lt_trichotomy e e' with hlt | rfl | hgt
        · exact absurd (hrej' e hcur hlt hat).1 hshort
        · rfl
        · exact absurd (hrej e' hcur' hgt hat').1 hshort'

/-- **No valid frame is lost to a false header**: every position that carries a
header, 300 bytes and their sum is accepted, or lies inside an accepted frame. -/
theorem GreedyScan.mem_or_overlapped {s : List UInt8} {cur : Nat} {acc rej : List Nat}
    (h : GreedyScan s cur acc rej) {p : Nat} (hp : cur ≤ p) (hat : HeaderAt s p)
    (hav : Available s p) (hsum : SumMatches s p) :
    p ∈ acc ∨ ∃ q ∈ acc, q < p ∧ p < q + 300 := by
  induction h with
  | @emit cur q acc rej hle hatq havq hsumq hbefore _ ih =>
    rcases Nat.lt_or_ge p q with hlt | hge
    · exact absurd hsum (hbefore p hp hlt hat).2
    · rcases Nat.eq_or_lt_of_le hge with rfl | hgt
      · exact .inl (List.mem_cons_self ..)
      · rcases Nat.lt_or_ge p (q + 300) with hin | hout
        · exact .inr ⟨q, List.mem_cons_self .., hgt, hin⟩
        · rcases ih hout with hmem | ⟨q', hq', hover⟩
          · exact .inl (List.mem_cons_of_mem _ hmem)
          · exact .inr ⟨q', List.mem_cons_of_mem _ hq', hover⟩
  | @stop cur e hcur hrej hend =>
    rcases Nat.lt_or_ge p e with hlt | hge
    · exact absurd hsum (hrej p hp hlt hat).2
    · rcases hend with hend | ⟨-, hshort⟩
      · unfold Available at hav
        omega
      · refine absurd ?_ hshort
        unfold Available at hav ⊢
        omega

/-! ## The scanner computes it -/

/-- The checksum is the sum modulo 256. -/
theorem foldl_add_toNat (l : List UInt8) (a : UInt8) :
    (l.foldl (fun sum byte => sum + byte) a).toNat
      = (a.toNat + (l.map UInt8.toNat).sum) % 256 := by
  induction l generalizing a with
  | nil => simp [Nat.mod_eq_of_lt a.toNat_lt]
  | cons b l ih =>
    rw [List.foldl_cons, ih, UInt8.toNat_add, List.map_cons, List.sum_cons]
    omega

/-- The code's wrapping sum is the 8-bit sum. -/
theorem sumOk_drop_iff (s : List UInt8) (p : Nat) :
    SumOk (s.drop p) ↔ SumMatches s p := by
  have hsum : (checksum ((s.drop p).take frameLen)).toNat
      = (((s.drop p).take 299).map UInt8.toNat).sum % 256 := by
    rw [checksum, foldl_add_toNat, List.take_take]
    simp [checksumOffset, frameLen]
  have hbyte : ((s.drop p).take frameLen).getD checksumOffset 0 = s.getD (p + 299) 0 := by
    simp only [List.getD_eq_getElem?_getD, frameLen, checksumOffset]
    rw [List.getElem?_take_of_lt (by omega), List.getElem?_drop]
  rw [SumOk, SumMatches, hbyte, ← hsum, UInt8.toNat_inj]

/-- The frame in front of what is left is the frame at that place. -/
theorem frontFrame_drop (s : List UInt8) (p : Nat) :
    frontFrame (s.drop p) = frameAt s p := by
  simp only [frontFrame, frameAt, frameLen, List.getD_eq_getElem?_getD]
  rw [List.getElem?_take_of_lt (by omega), List.getElem?_drop]

/-- The reference scanner, started at position `cur` and run until it has to
wait, computes the greedy scan from `cur`. -/
theorem run_greedyScan {s c : List UInt8} {log : List Event} {cur : Nat}
    (hcur : cur ≤ s.length) (h : framer.Run (s.drop cur) log c) (hstuck : framer.Stuck c) :
    ∃ acc rej, GreedyScan s cur acc rej ∧ framesOf log = acc.map (frameAt s) ∧
      rejections log = rej.length := by
  generalize hb : s.drop cur = b at h
  induction h generalizing cur with
  | refl b =>
    subst hb
    rcases framer_stuck_iff.mp hstuck with ⟨hat, hshort⟩ | ⟨-, hshort⟩
    · -- a header whose frame has not all arrived
      have hshort' : ¬ Available s cur := by
        rw [List.length_drop, frameLen] at hshort
        unfold Available
        omega
      have hstop := GreedyScan.stop (Nat.le_refl cur) (fun q hq hq' => by omega)
        (.inr ⟨headerAt_drop.mp hat, hshort'⟩)
      rw [headerPositions_self] at hstop
      exact ⟨[], [], hstop, rfl, rfl⟩
    · -- too few bytes left for a header
      rw [List.length_drop] at hshort
      have hno : ∀ q, cur ≤ q → ¬ HeaderAt s q := by
        intro q hq hat
        have := hat.le
        omega
      refine ⟨[], headerPositions s cur s.length, ?_, rfl, ?_⟩
      · exact .stop hcur (fun q hq _ hat => absurd hat (hno q hq)) (.inl (Nat.le_refl _))
      · have hnil : headerPositions s cur s.length = [] :=
          List.filter_eq_nil_iff.mpr fun q hq hat =>
            hno q (List.mem_range'_1.mp hq).1 (of_decide_eq_true hat)
        rw [hnil]
        rfl
  | @head b c e n log hlook hrest ih =>
    subst hb
    have hn := framer.look_le hlook
    rw [List.length_drop] at hn
    have hdrop : s.drop (cur + n) = (s.drop cur).drop n := by rw [List.drop_drop]
    obtain ⟨acc, rej, hscan, hframes, hrej⟩ := ih (by omega) hstuck hdrop
    obtain ⟨hat, hb, hsum, hl⟩ | ⟨hat, hb, hsum, hl⟩ | ⟨hat, hb, hl⟩ | ⟨hl, -⟩ :=
      lookAt_cases (s.drop cur) <;>
      (change lookAt _ = _ at hlook; rw [hl] at hlook; cases hlook)
    · -- a frame: the scan emits it and continues behind it
      refine ⟨cur :: acc, rej, ?_, ?_, hrej⟩
      · have hemit := GreedyScan.emit (Nat.le_refl cur) (headerAt_drop.mp hat)
          (show cur + 300 ≤ s.length by unfold frameLen at hn; omega)
          ((sumOk_drop_iff s cur).mp hsum) (fun q hq hq' => by omega) hscan
        rwa [headerPositions_self] at hemit
      · rw [framesOf_cons_frame, hframes, frontFrame_drop]
        rfl
    · -- a header whose sum does not match
      have hav : Available s cur := by
        rw [List.length_drop, frameLen] at hb
        unfold Available
        omega
      refine ⟨acc, cur :: rej, hscan.reject (headerAt_drop.mp hat)
        ⟨hav, mt (sumOk_drop_iff s cur).mpr hsum⟩, hframes, ?_⟩
      rw [rejections, List.count_cons_self, ← rejections, hrej]
      rfl
    · -- a byte that starts no header
      exact ⟨acc, rej, hscan.skip fun hat' => hat (headerAt_drop.mpr hat'), hframes, hrej⟩

/-- **Reference semantics of the framer**: a fresh reader fed a byte stream and
drained emits exactly the frames of the greedy leftmost scan of the stream,
`framesDiscarded` counts the headers that scan rejects, and every valid frame of
the stream is emitted or overlapped by an emitted one. -/
theorem drain_eq_greedyScan (stream : List UInt8) :
    ∃ acc rej, GreedyScan stream 0 acc rej ∧
      (∀ acc' rej', GreedyScan stream 0 acc' rej' → acc' = acc ∧ rej' = rej) ∧
      (FrameReader.feed {} stream).drain.1 = acc.map (frameAt stream) ∧
      (FrameReader.feed {} stream).drain.2.framesDiscarded = rej.length ∧
      ∀ p, HeaderAt stream p → Available stream p → SumMatches stream p →
        p ∈ acc ∨ ∃ q ∈ acc, q < p ∧ p < q + 300 := by
  obtain ⟨hrun, hstuck⟩ := framer.run_drain stream
  change framer.Run (stream.drop 0) _ _ at hrun
  obtain ⟨acc, rej, hscan, hframes, hrej⟩ := run_greedyScan (Nat.zero_le _) hrun hstuck
  refine ⟨acc, rej, hscan, fun acc' rej' h' => h'.unique hscan, ?_, ?_, ?_⟩
  · rw [feed_drain, ← hframes]
    rfl
  · rw [feed_drain, ← hrej]
    rfl
  · exact fun p hat hav hsum => hscan.mem_or_overlapped (Nat.zero_le p) hat hav hsum

end HostServices.Bms
