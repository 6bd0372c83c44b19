import TrackerFpga.Lib.Answers
import TrackerFpga.Sync.Core
import TrackerFpga.System.EndToEnd
import TrackerFpga.Vata.LiveTime

/-!
# Time stamps

All cores take their running counter from `sync_vata_distn`, so the running counters in the headers
are readings of one clock: packets of one event have the same, and those of two events, in the same
core or in different ones, differ by the cycles between them (`time_stamps`).  No two events come
within `599` cycles and the hold time.
-/

namespace TrackerFpga.System.Run

open EventId Vata

variable {N R : ℕ} {r : Run N R} {mask : BitVec 12} {h a a' k k' w w' : ℕ}

/-- The nets from `global_counter` of the synchroniser, whose clocked part is `c`, to the cores. -/
def Clocks (r : Run N R) (c : Sync.Core.Run) : Prop :=
  ∀ t n, ((r.inp t).sync.cores n).runningCounter = c.counter t

lemma Clocks.counted {c : Sync.Core.Run} (hc : r.Clocks c) (n : Fin N) :
    (r.sync.core n).Counted := by
  have hinput : ∀ t, ((r.sync.core n).inp t).runningCounter = c.counter t := fun t => hc t n
  intro t
  rw [hinput, hinput, c.counter_succ]

/-- The running counters of two packets. -/
lemma Clocks.runningTime_sub {c : Sync.Core.Run} (hc : r.Clocks c) {m n : Fin N}
    (hp : (r.sync.core m).PacketAt k a w) (hp' : (r.sync.core n).PacketAt k' a' w') (haa : a ≤ a') :
    (r.sync.core n).runningTime w' - (r.sync.core m).runningTime w = BitVec.ofNat 64 (a' - a) := by
  have hsame : ((r.sync.core m).inp a).runningCounter = ((r.sync.core n).inp a).runningCounter :=
    (hc a m).trans (hc a n).symm
  rw [Vata.Run.runningTime, Vata.Run.runningTime, hp.running, hp'.running, hsame,
    (hc.counted n).sub haa]

/-- **One clock for all headers.**  While the instrument takes data, the running counters of two
packets, of any cores, differ by the cycles between their events, and from one event to the next
there are at least `599` cycles and the hold time.  As long as the counter has not come around,
packets have the same running counter only if they are of the same event. -/
theorem time_stamps (hN : N ≤ 12) (hd : r.TakesData mask h) (hs : r.Streams) {c : Sync.Core.Run}
    (hc : r.Clocks c) {m n : Fin N} (hp : (r.sync.core m).PacketAt k a w)
    (hp' : (r.sync.core n).PacketAt k' a' w') (hkk : k ≤ k') :
    a ≤ a' ∧ (k' - k) * (h + 599) ≤ a' - a ∧
      (r.sync.core n).runningTime w' - (r.sync.core m).runningTime w = BitVec.ofNat 64 (a' - a) ∧
      (a' - a < 2 ^ 64 →
        ((r.sync.core m).runningTime w = (r.sync.core n).runningTime w' ↔ k = k')) := by
  obtain ⟨ha, hcount⟩ := hd.accepts_of_packetAt hs hN hp n
  have hcount' := hd.count_accepts_eq hs hp'
  have haa : a ≤ a' := by
    by_contra hlater
    have hlt := Nat.count_strict_mono hp'.accepts (Nat.not_le.mp hlater)
    omega
  have hclock := hc.runningTime_sub hp hp' haa
  refine ⟨haa, ?_, hclock, fun hshort => ⟨fun heq => ?_, ?_⟩⟩
  · rw [← hcount, ← hcount']
    exact count_mul_le (fun u v hu hv huv => Vata.Run.accepts_apart (fun t => hd.noForce t n)
      (hd.abortDaq_eq n) (fun t => hd.holdTime t n) hu hv huv) ha hp'.accepts haa
  · rw [heq, BitVec.sub_self] at hclock
    have hzero := congrArg BitVec.toNat hclock
    rw [BitVec.toNat_ofNat, BitVec.toNat_ofNat, Nat.mod_eq_of_lt hshort] at hzero
    have hsame : a = a' := by omega
    rw [← hcount, ← hcount', hsame]
  · rintro rfl
    obtain rfl := hd.same_event hs hN hp hp'
    rw [Nat.sub_self] at hclock
    bv_omega

/-- A synchroniser that is left alone after the reset. -/
def leftAlone : Sync.Core.Run where
  start := .reset
  master _ := .quiet

/-- The counter of `twoHits` is that of this synchroniser. -/
lemma twoHits_clocks : twoHits.Clocks leftAlone :=
  fun t _ => (Sync.Core.Run.counter_of_reset (r := leftAlone) rfl t).symm

/-- The hits are accepted in the cycles `1` and `621`, and the headers of the first event in the one
core and of the second event in the other tell how far apart. -/
theorem twoHits_stamps : (twoHits.sync.core 1).runningTime 1181 -
    (twoHits.sync.core 0).runningTime 561 = BitVec.ofNat 64 (621 - 1) :=
  (time_stamps (by decide) twoHits_takesData twoHits_streams twoHits_clocks
    (twoHits_packetAt 0).1 (twoHits_packetAt 1).2 (by decide)).2.2.1

end TrackerFpga.System.Run
