import TrackerFpga.Server.Devices
import TrackerFpga.Vata.HoldDelay

/-!
# `set-hold` and `get-hold`

The argument of `set-hold` is read by `strtol` into an `int` and written to the register of the
hold delay as a `u32`, of which the core uses sixteen bits.  The server looks at what `strtol` has
not read, and not at the number.  So a word that is no number is refused, and a number of sixteen
bits is the hold time of the core and what `get-hold` returns; any other number is taken, and the
register is changed (`holdLaw_iff`).
-/

namespace TrackerFpga.Server

open ByteCodec CString Interaction Vata

namespace LayerServer

open Method

/-- A `get-hold` request for core `n` returns `h`. -/
def GetsHold (nVata n : ℕ) (d : Devices) (h : ℕ) : Prop :=
  ∀ (request : List Byte) (arg : Option Token),
    vataRequest nVata request = some ⟨n, .getHold, arg⟩ →
    ∀ (others : (o : Call) → Option o.Answer) (srv : LayerServer) (w : World), w.devices = d →
      Ends nVata others (handle nVata srv request) w (0, srv) [encodeLE 4 h] [] d

/-- The law of a `set-hold` request for core `n`.  If the server replies `ok`, the argument is a
number, which the core uses as its hold time from then on and which `get-hold` returns.  An
argument that is no number of sixteen bits is answered by an error and leaves the registers as they
are, and one that is gets `ok`. -/
structure HoldLaw (nVata : ℕ) (request : List Byte) (n : ℕ) (arg : Option Token) : Prop where
  okThen : ∀ (others : (o : Call) → Option o.Answer) (srv : LayerServer) (w : World)
    (a : ℤ × LayerServer) (acts : List Call) (d : Devices),
    Ends nVata others (handle nVata srv request) w a [bytes "ok"] acts d →
    ∃ h : ℕ, arg.bind number = some (h : ℤ) ∧ Core.HoldsFor (d.hold n) h ∧ GetsHold nVata n d h
  refuses : (¬ ∃ h : ℕ, h < 65536 ∧ arg.bind number = some (h : ℤ)) →
    ∀ (others : (o : Call) → Option o.Answer) (srv : LayerServer) (w : World),
      ∃ msg, Ends nVata others (handle nVata srv request) w (1, srv) [msg] [] w.devices ∧
        IsError msg
  accepts : ∀ h : ℕ, h < 65536 → arg.bind number = some (h : ℤ) →
    ∀ (others : (o : Call) → Option o.Answer) (srv : LayerServer) (w : World),
      ∃ d, Ends nVata others (handle nVata srv request) w (0, srv) [bytes "ok"] [] d

/-- The argument is a number that `hold_time` cannot represent. -/
def TooWide (arg : Option Token) : Prop :=
  ∃ k : ℤ, arg.bind number = some k ∧ (k < 0 ∨ 65535 < k)

section HoldLaw

variable {nVata n : ℕ} {request : List Byte} {others : (o : Call) → Option o.Answer}
  {srv : LayerServer} {w : World} {arg : Option Token} {ret : ℤ} {ms : List (List Byte)}
  {acts : List Call} {d : Devices}

/-! ## The requests -/

/-- A request that comes to a command of `vata` does what the command does. -/
lemma ends_vata {r : VataRequest} (hr : vataRequest nVata request = some r)
    (h : ∀ w' : World, w'.tokens.head? = r.arg → w'.devices = w.devices →
      Ends nVata others (vataCommand r.nvata (some r.command)) w' ret ms acts d) :
    Ends nVata others (handle nVata srv request) w (ret, srv) ms acts d := by
  have hgroup := lookup_of_vataRequest hr
  rw [vataRequest, if_pos hgroup] at hr
  have hmsg : Ends nVata others (processVataMsg nVata (ofBuffer request)) w ret ms acts d := by
    rcases htail : (tokens (ofBuffer request)).tail with - | ⟨num, - | ⟨cmd, args⟩⟩
    · simp [htail, vataParts] at hr
    · simp [htail, vataParts] at hr
    · rw [htail, vataParts] at hr
      obtain ⟨nvata, hnum, hr⟩ := Option.bind_eq_some_iff.mp hr
      obtain ⟨command, hlookup, hr⟩ := Option.bind_eq_some_iff.mp hr
      obtain rfl := Option.some.inj hr
      refine ends_secondToken htail fun w₁ htokens hdevices => ?_
      rw [hnum]
      refine ends_strtok fun w₂ htokens' hdevices' => ?_
      rw [htokens, List.head?_cons]
      dsimp only
      rw [hlookup]
      refine h w₂ ?_ (hdevices'.trans hdevices)
      rw [htokens', htokens]
      rfl
  rw [handle, hgroup]
  exact ends_bind_pure hmsg

lemma mem_tokens_of_arg {r : VataRequest} {a : Token} (hr : vataRequest nVata request = some r)
    (harg : r.arg = some a) : a ∈ tokens (ofBuffer request) := by
  rw [vataRequest, if_pos (lookup_of_vataRequest hr)] at hr
  rcases htail : (tokens (ofBuffer request)).tail with - | ⟨num, - | ⟨cmd, args⟩⟩
  · simp [htail, vataParts] at hr
  · simp [htail, vataParts] at hr
  · rw [htail, vataParts] at hr
    obtain ⟨nvata, -, hr⟩ := Option.bind_eq_some_iff.mp hr
    obtain ⟨command, -, hr⟩ := Option.bind_eq_some_iff.mp hr
    obtain rfl := Option.some.inj hr
    refine List.mem_of_mem_tail ?_
    rw [htail]
    exact List.mem_cons_of_mem _ (List.mem_cons_of_mem _ (List.mem_of_mem_head? harg))

/-- The dispatcher replies for a command that fails. -/
lemma ends_orError {command : Method ℤ} {retmsg : String} (hret : ret ≠ 0)
    (h : Ends nVata others command w ret [] acts d) :
    Ends nVata others (orError command retmsg) w 1 [bytes retmsg ++ [0#8]] acts d := by
  refine ends_bind_reply h fun w' hdevices => ?_
  rw [if_pos hret]
  exact ends_send_pure hdevices

/-- A command that does not fail has replied. -/
lemma ends_orError_zero {command : Method ℤ} {retmsg : String}
    (h : Ends nVata others command w 0 ms acts d) :
    Ends nVata others (orError command retmsg) w 0 ms acts d := by
  have hend : Ends nVata others (orError command retmsg) w 0 (ms ++ []) (acts ++ []) d := by
    refine ends_bind h fun w' hdevices => ?_
    rw [if_neg (not_not.mpr rfl)]
    exact ends_pure hdevices
  rwa [List.append_nil, List.append_nil] at hend

/-- `set-hold` with a number writes what `strtol` makes of it, and with anything else fails. -/
lemma ends_setHold_number {k : ℤ} (hr : vataRequest nVata request = some ⟨n, .setHold, arg⟩)
    (hnumber : arg.bind number = some k) :
    Ends nVata others (handle nVata srv request) w (0, srv) [bytes "ok"] []
      (w.devices.afterHold n (BitVec.ofInt 32 (clampLong k))) := by
  obtain ⟨a, rfl, hk⟩ := Option.bind_eq_some_iff.mp hnumber
  have hparse : ¬ notParsed (strtol 0 a).2 = true := by
    simp [notParsed_iff (mem_tokens_of_arg hr rfl), hk]
  refine ends_vata hr fun w' htokens hdevices => ends_orError_zero ?_
  refine ends_strtok fun w'' _ hdevices' => ?_
  rw [htokens]
  dsimp only
  rw [if_neg hparse, strtol_of_number hk]
  refine ends_quiet rfl rfl rfl fun w₃ _ hdevices'' => ends_send_pure ?_
  rw [hdevices'', hdevices', hdevices]

lemma ends_setHold_error (hr : vataRequest nVata request = some ⟨n, .setHold, arg⟩)
    (hnumber : arg.bind number = none) :
    Ends nVata others (handle nVata srv request) w (1, srv)
      [bytes "ERROR: could not parse set-hold command" ++ [0#8]] [] w.devices := by
  refine ends_vata hr fun w' htokens hdevices => ends_orError one_ne_zero ?_
  refine ends_strtok fun w'' _ hdevices' => ?_
  rw [htokens]
  cases arg with
  | none => exact ends_pure (hdevices'.trans hdevices)
  | some a =>
      have hparse := (notParsed_iff (mem_tokens_of_arg hr rfl)).mpr hnumber
      dsimp only
      rw [if_pos hparse]
      exact ends_pure (hdevices'.trans hdevices)

/-- `get-hold` returns what the register holds. -/
lemma getsHold {h : ℕ} (hh : d.hold n = BitVec.ofNat 32 h) (hlt : h < 2 ^ 32) :
    GetsHold nVata n d h := by
  rintro request arg hr others srv w rfl
  have hvalue : (w.devices.hold n).toNat = h := by
    rw [hh, BitVec.toNat_ofNat]
    exact Nat.mod_eq_of_lt hlt
  rw [← hvalue]
  refine ends_vata hr fun w' _ hdevices => ends_orError_zero ?_
  refine ends_quiet rfl rfl rfl fun w'' _ hdevices' => ?_
  rw [hdevices]
  exact ends_send_pure (hdevices'.trans hdevices)

/-! ## The law -/

lemma not_isError_ok : ¬ IsError (bytes "ok") := by decide

/-- A number that is too wide is taken. -/
lemma not_holdLaw (hr : vataRequest nVata request = some ⟨n, .setHold, arg⟩)
    (hwide : TooWide arg) : ¬ HoldLaw nVata request n arg := by
  intro hlaw
  obtain ⟨k, hk, hrange⟩ := hwide
  have hno : ¬ ∃ h : ℕ, h < 65536 ∧ arg.bind number = some (h : ℤ) := by
    rintro ⟨h, hh, hnumber⟩
    obtain rfl := Option.some.inj (hk.symm.trans hnumber)
    omega
  obtain ⟨msg, hend, herror⟩ := hlaw.refuses hno (fun _ => none) started .start
  obtain ⟨-, hmsg, -⟩ := hend.unique (ends_setHold_number hr hk)
  obtain rfl := List.head_eq_of_cons_eq hmsg
  exact not_isError_ok herror

/-- **The hold delay is what was asked for**, for the arguments that are no number and for the
numbers that `hold_time` can represent; the others are taken too. -/
theorem holdLaw_iff (hr : vataRequest nVata request = some ⟨n, .setHold, arg⟩) :
    HoldLaw nVata request n arg ↔ ¬ TooWide arg := by
  refine ⟨fun hlaw hwide => not_holdLaw hr hwide hlaw, fun hfits => ?_⟩
  have hnarrow : ∀ k : ℤ, arg.bind number = some k → ∃ h : ℕ, k = h ∧ h < 65536 := by
    intro k hk
    have hrange : ¬ (k < 0 ∨ 65535 < k) := fun hout => hfits ⟨k, hk, hout⟩
    exact ⟨k.toNat, by omega, by omega⟩
  refine ⟨fun others srv w a acts d hend => ?_, fun hno others srv w => ?_,
    fun h hlt hnumber others srv w => ⟨_, ends_setHold_number hr hnumber⟩⟩
  · cases hnumber : arg.bind number with
    | none =>
        obtain ⟨-, hmsg, -⟩ := hend.unique (ends_setHold_error hr hnumber)
        exact absurd hmsg (by decide)
    | some k =>
        obtain ⟨-, -, -, rfl⟩ := hend.unique (ends_setHold_number hr hnumber)
        obtain ⟨h, rfl, hlt⟩ := hnarrow k hnumber
        have hclamp : clampLong h = h := by
          rw [clampLong]
          omega
        have hhold : (w.devices.afterHold n (BitVec.ofInt 32 (clampLong h))).hold n =
            BitVec.ofNat 32 h := by
          rw [Devices.afterHold_hold, hclamp, BitVec.ofInt_natCast]
        refine ⟨h, rfl, ?_, getsHold hhold (by omega)⟩
        rw [hhold]
        exact Core.holdsFor_ofNat hlt
  · cases hnumber : arg.bind number with
    | none => exact ⟨_, ends_setHold_error hr hnumber, isError_ofList (by decide)⟩
    | some k =>
        obtain ⟨h, rfl, hlt⟩ := hnarrow k hnumber
        exact absurd ⟨h, hlt, hnumber⟩ hno

end HoldLaw

/-- The largest hold time. -/
theorem holdLaw_65535 :
    HoldLaw 12 (bytes "vata 0 set-hold 65535") 0 (some (bytes "65535")) := by
  refine (holdLaw_iff (by decide)).mpr ?_
  rintro ⟨k, hk, hrange⟩
  have hnumber : number (bytes "65535") = some 65535 := by decide
  obtain rfl := Option.some.inj (hnumber.symm.trans hk)
  omega

/-- The core would use `65536` as `0`. -/
theorem set_hold_65536 :
    ¬ ∀ (nVata : ℕ) (request : List Byte) (n : ℕ) (arg : Option Token),
      vataRequest nVata request = some ⟨n, .setHold, arg⟩ → HoldLaw nVata request n arg := by
  intro hlaw
  have hr : vataRequest 12 (bytes "vata 0 set-hold 65536") =
      some ⟨0, .setHold, some (bytes "65536")⟩ := by decide
  refine not_holdLaw hr ⟨65536, ?_, .inr (by decide)⟩ (hlaw _ _ _ _ hr)
  decide

end LayerServer

end TrackerFpga.Server
