import TrackerFpga.Server.DataPacket

/-!
# The event id of a packet

`event_id` is a `long int` that is negative as long as no id is set.  On the 32-bit processor the
first words from `2 ^ 31` on are negative too: a packet that such a word has named still counts as
one without an id, and takes data of any other id.  `keepsId_iff` says that a packet keeps to its
first id exactly where that word is below `2 ^ 31`, or no other word comes.
-/

namespace TrackerFpga.Server.DataPacket

variable {n : ℕ} {p : DataPacket n} {e e₀ : Entry n} {es : List (Entry n)} {w : Word} {k : ℕ}

/-- `data[0]`. -/
def firstWord (data : AsicData) : Word := data.toList.getD 0 0#32

/-- A call of `set_vata_data`: whether the data was taken, and the packet. -/
def call (p : DataPacket n) (e : Entry n) : Bool × DataPacket n :=
  p.setVataData e.core e.data e.count

/-- The packet after these calls, whatever they return. -/
def setEach (p : DataPacket n) (es : List (Entry n)) : DataPacket n :=
  es.foldl (fun p e => (p.call e).2) p

/-- The first of these calls fixes the event id of the packet `p`, each later one is taken exactly
if it has the same first word, a call that is not taken changes nothing, and all data that is
stored at any time has the same first word. -/
structure KeepsId (p : DataPacket n) (es : List (Entry n)) : Prop where
  first : ∀ e, es[0]? = some e → (p.call e).1 = true ∧
    ∀ k, 0 < k → (p.setEach (es.take k)).eventId = eventIdOf e.data
  later : ∀ e₀ e k, es[0]? = some e₀ → 0 < k → es[k]? = some e →
    (((p.setEach (es.take k)).call e).1 = true ↔ firstWord e.data = firstWord e₀.data)
  refused : ∀ e k, es[k]? = some e → ((p.setEach (es.take k)).call e).1 = false →
    p.setEach (es.take (k + 1)) = p.setEach (es.take k)
  stored : ∀ k i j, (p.setEach (es.take k)).needData i = false →
    (p.setEach (es.take k)).needData j = false →
      firstWord ((p.setEach (es.take k)).asicData i) =
        firstWord ((p.setEach (es.take k)).asicData j)

/-! ## One call -/

/-- The ids that are not negative. -/
lemma eventIdOf_nonneg_iff {data : AsicData} :
    0 ≤ eventIdOf data ↔ (firstWord data).toNat < 2 ^ 31 := by
  rw [eventIdOf, firstWord, BitVec.toInt_eq_toNat_cond]
  split_ifs <;> omega

lemma setEach_take_succ (h : es[k]? = some e) :
    p.setEach (es.take (k + 1)) = ((p.setEach (es.take k)).call e).2 := by
  rw [setEach, List.take_add_one, h, List.foldl_append]
  rfl

lemma setEach_take_of_none (h : es[k]? = none) :
    p.setEach (es.take (k + 1)) = p.setEach (es.take k) := by
  rw [List.take_add_one, h, Option.toList_none, List.append_nil]

/-- A call that is not taken changes nothing. -/
lemma call_of_refused (h : (p.call e).1 = false) : (p.call e).2 = p := by
  unfold call setVataData at h ⊢
  split_ifs at h ⊢
  rfl

/-- A packet without an id is named by the first word. -/
lemma call_of_neg (h : p.eventId < 0) :
    p.call e = (true, { p with eventId := eventIdOf e.data }.store e.core e.data e.count) :=
  setVataData_of_id (.inl h)

/-! ## A packet with an id -/

/-- The packet is named by this word, and all data in it has it as its first word. -/
structure Named (p : DataPacket n) (w : Word) : Prop where
  id : p.eventId = w.toInt
  data : ∀ i, p.needData i = false → firstWord (p.asicData i) = w

/-- Data with this first word is stored in a packet of this id. -/
lemma named_store (hdata : ∀ i, p.needData i = false → firstWord (p.asicData i) = w)
    (he : firstWord e.data = w) :
    ({ p with eventId := eventIdOf e.data }.store e.core e.data e.count).Named w := by
  refine ⟨congrArg BitVec.toInt he, fun i hi => ?_⟩
  rcases eq_or_ne i e.core with rfl | hne
  · simpa [store] using he
  · simp only [store, Function.update_of_ne hne] at hi ⊢
    exact hdata i hi

/-- A new packet is named by the first call. -/
lemma named_first (time : BitVec 64) (uninitialised : Fin n → AsicData) :
    ((new time uninitialised).call e).1 = true ∧
      ((new time uninitialised).call e).2.Named (firstWord e.data) := by
  have hset : (new time uninitialised).call e = _ := call_of_neg (show (-1 : ℤ) < 0 by decide)
  rw [hset]
  exact ⟨rfl, named_store (fun i hi => absurd hi (by simp [new])) rfl⟩

/-- A packet with an id that is not negative checks the first word. -/
lemma Named.call_of_nonneg (h : p.Named w) (hw : 0 ≤ w.toInt) :
    ((p.call e).1 = true ↔ firstWord e.data = w) ∧ (p.call e).2.Named w := by
  have hset : ¬ p.eventId < 0 := by
    rw [h.id]
    omega
  by_cases he : firstWord e.data = w
  · have hcall : p.call e = _ :=
      setVataData_of_id (.inr (h.id.trans (congrArg BitVec.toInt he).symm))
    rw [hcall]
    exact ⟨iff_of_true rfl he, named_store h.data he⟩
  · have hne : p.eventId ≠ eventIdOf e.data := by
      rw [h.id]
      exact fun heq => he (BitVec.toInt_inj.mp heq).symm
    have hcall : p.call e = (false, p) := by
      rw [call, setVataData, if_neg hset, if_pos hne]
    rw [hcall]
    exact ⟨iff_of_false Bool.false_ne_true he, h⟩

/-- A packet takes data of its own id. -/
lemma Named.call_of_same (h : p.Named w) (he : firstWord e.data = w) :
    (p.call e).1 = true ∧ (p.call e).2.Named w := by
  have hcall : p.call e = _ := setVataData_of_id (.inr (h.id.trans (congrArg BitVec.toInt he).symm))
  rw [hcall]
  exact ⟨rfl, named_store h.data he⟩

/-- It takes data of every id if its own is negative. -/
lemma Named.call_of_neg (h : p.Named w) (hw : w.toInt < 0) : (p.call e).1 = true := by
  rw [DataPacket.call_of_neg (h.id.trans_lt hw)]

/-! ## A sequence of calls -/

section Calls

variable {time : BitVec 64} {uninitialised : Fin n → AsicData}

/-- The packet keeps its name while its id is not negative or no other word comes. -/
lemma named_take (h₀ : es[0]? = some e₀)
    (hcond : 0 ≤ eventIdOf e₀.data ∨ ∀ j < k, ∀ e : Entry n, es[j]? = some e →
      firstWord e.data = firstWord e₀.data) (hk : 0 < k) :
    ((new time uninitialised).setEach (es.take k)).Named (firstWord e₀.data) := by
  induction k, hk using Nat.le_induction with
  | base =>
      rw [setEach_take_succ h₀]
      exact (named_first time uninitialised).2
  | succ k hk ih =>
      have hnamed := ih (hcond.imp_right fun hsame j hj => hsame j (by omega))
      rcases he : es[k]? with - | e
      · rwa [setEach_take_of_none he]
      · rw [setEach_take_succ he]
        rcases hcond with hpos | hsame
        · exact (hnamed.call_of_nonneg hpos).2
        · exact (hnamed.call_of_same (hsame k (by omega) e he)).2

/-- Nothing is stored before the first call. -/
lemma stored_of_named {p : DataPacket n} (h : p.Named w) (i j : Fin n)
    (hi : p.needData i = false) (hj : p.needData j = false) :
    firstWord (p.asicData i) = firstWord (p.asicData j) :=
  (h.data i hi).trans (h.data j hj).symm

lemma keepsId_of_cond
    (hcond : ∀ e₀, es[0]? = some e₀ →
      0 ≤ eventIdOf e₀.data ∨ ∀ e ∈ es, firstWord e.data = firstWord e₀.data) :
    (new time uninitialised).KeepsId es := by
  have hnamed : ∀ e₀ k, es[0]? = some e₀ → 0 < k →
      ((new time uninitialised).setEach (es.take k)).Named (firstWord e₀.data) :=
    fun e₀ k h₀ hk => named_take h₀
      ((hcond e₀ h₀).imp_right fun hsame j _ e he => hsame e (List.mem_of_getElem? he)) hk
  refine ⟨fun e he => ?_, fun e₀ e k h₀ hk he => ?_, fun e k he href => ?_, fun k i j hi hj => ?_⟩
  · exact ⟨(named_first time uninitialised).1, fun k hk => (hnamed e k he hk).id⟩
  · rcases hcond e₀ h₀ with hpos | hsame
    · exact ((hnamed e₀ k h₀ hk).call_of_nonneg hpos).1
    · have hword := hsame e (List.mem_of_getElem? he)
      exact iff_of_true ((hnamed e₀ k h₀ hk).call_of_same hword).1 hword
  · rw [setEach_take_succ he, call_of_refused href]
  · rcases Nat.eq_zero_or_pos k with rfl | hk
    · exact absurd hi (by simp [setEach, new])
    · rcases h₀ : es[0]? with - | e₀
      · obtain rfl : es = [] := by simpa using h₀
        exact absurd hi (by simp [setEach, new])
      · exact stored_of_named (hnamed e₀ k h₀ hk) i j hi hj

/-- A negative id is overwritten by the first word that differs from it. -/
lemma same_of_keepsId (hkeeps : (new time uninitialised).KeepsId es) (h₀ : es[0]? = some e₀)
    (hneg : eventIdOf e₀.data < 0) :
    ∀ (k : ℕ) (e : Entry n), es[k]? = some e → firstWord e.data = firstWord e₀.data := by
  intro k
  induction k using Nat.strong_induction_on with
  | _ k ih =>
      intro e he
      rcases Nat.eq_zero_or_pos k with rfl | hk
      · rw [Option.some.inj (he.symm.trans h₀)]
      · have hnamed : ((new time uninitialised).setEach (es.take k)).Named _ :=
          named_take h₀ (.inr ih) hk
        exact (hkeeps.later e₀ e k h₀ hk he).mp (hnamed.call_of_neg hneg)

end Calls

/-- **One event id.**  A new packet keeps to the id of its first call exactly if the first word of
that call is below `2 ^ 31`, or every call has this first word. -/
theorem keepsId_iff (time : BitVec 64) (uninitialised : Fin n → AsicData) (es : List (Entry n)) :
    (new time uninitialised).KeepsId es ↔
      ∀ e₀, es[0]? = some e₀ → (firstWord e₀.data).toNat < 2 ^ 31 ∨
        ∀ e ∈ es, firstWord e.data = firstWord e₀.data := by
  simp only [← eventIdOf_nonneg_iff]
  refine ⟨fun hkeeps e₀ h₀ => ?_, keepsId_of_cond⟩
  rcases lt_or_ge (eventIdOf e₀.data) 0 with hneg | hpos
  · refine .inr fun e he => ?_
    obtain ⟨k, hk⟩ := List.mem_iff_getElem?.mp he
    exact same_of_keepsId hkeeps h₀ hneg k e hk
  · exact .inl hpos

/-- Data of a core whose first word is this one. -/
def entryOf (core : Fin 2) (id : Word) : Entry 2 :=
  ⟨core, Vector.ofFn fun k => if k.val = 0 then id else 0#32, 0#32⟩

/-- A packet of two cores that takes the ids `2 ^ 31` and `5`. -/
theorem mixed_ids : ¬ ∀ (time : BitVec 64) (uninitialised : Fin 2 → AsicData)
    (es : List (Entry 2)), (new time uninitialised).KeepsId es := by
  intro hclaim
  have hkeeps := hclaim 0#64 (fun _ => Vector.replicate 19 0#32)
    [entryOf 0 (BitVec.ofNat 32 (2 ^ 31)), entryOf 1 5#32]
  exact absurd ((hkeeps.later _ _ 1 rfl Nat.one_pos rfl).mp rfl) (by decide)

end TrackerFpga.Server.DataPacket
