import OmnibaseCore.Dispatch.Runtime

/-!
# What a poll delivers
-/

namespace OmnibaseCore.Dispatch

/-! ## Records -/

/-- The records of a log tell where they are. -/
def InMemoryBroker.Placed (b : InMemoryBroker) : Prop :=
  ∀ place (o : ℕ) (m : ModelTransportMessage), (b.logs place)[o]? = some m →
    m.place = place ∧ m.offset = o

section
variable {b b' : InMemoryBroker} {t t' t₀ : InMemoryTransport} {place : TopicPartition}
  {batch batch₀ : List ModelTransportMessage} {m : ModelTransportMessage}

/-! ## One partition -/

/-- What has been fetched since `t₀`, from which the fetch positions have moved on. -/
structure Fetched (b : InMemoryBroker) (t₀ : InMemoryTransport)
    (batch₀ batch : List ModelTransportMessage) (t : InMemoryTransport) : Prop where
  same : t = { t₀ with positions := t.positions }
  le : ∀ place, t₀.position b place ≤ t.position b place
  source : ∀ m ∈ batch, m ∈ batch₀ ∨ ∃ place o,
    t₀.position b place ≤ o ∧ o < t.position b place ∧ (b.logs place)[o]? = some m
  delivered : ∀ place o, t₀.position b place ≤ o → o < t.position b place →
    ∃ m ∈ batch, (b.logs place)[o]? = some m
  keeps : ∀ m ∈ batch₀, m ∈ batch
  once : b.Placed → ∀ m, m ∉ batch₀ → batch.count m ≤ 1

theorem fetched_refl (b : InMemoryBroker) (t : InMemoryTransport)
    (batch : List ModelTransportMessage) : Fetched b t batch batch t where
  same := rfl
  le := fun _ => le_rfl
  source := fun _ hm => Or.inl hm
  delivered := fun _ _ hle hlt => absurd hlt (not_lt.mpr hle)
  keeps := fun _ hm => hm
  once := fun _ _ hm => (List.count_eq_zero.mpr hm).le.trans (Nat.zero_le 1)

theorem InMemoryBroker.Placed.nodup (h : b.Placed) (place : TopicPartition) :
    (b.logs place).Nodup := by
  rw [List.nodup_iff_injective_getElem]
  intro i j hij
  have hi := (h place i _ (List.getElem?_eq_getElem i.isLt)).2
  have hj := (h place j _ (List.getElem?_eq_getElem j.isLt)).2
  rw [Fin.ext_iff, ← hi, ← hj]
  exact congrArg _ hij

theorem batch_pollPartition {maxMessages : ℕ} (hroom : batch.length < maxMessages) :
    (InMemoryTransport.pollPartition b maxMessages (batch, t) place).1
      = batch ++ ((b.logs place).drop (t.position b place)).take (maxMessages - batch.length) := by
  unfold InMemoryTransport.pollPartition
  dsimp only
  rw [if_neg (not_le.mpr hroom)]

theorem pollPartition_of_full {maxMessages : ℕ} (hfull : ¬ batch.length < maxMessages) :
    InMemoryTransport.pollPartition b maxMessages (batch, t) place = (batch, t) := by
  unfold InMemoryTransport.pollPartition
  exact if_pos (not_lt.mp hfull)

theorem position_pollPartition {maxMessages : ℕ} (hroom : batch.length < maxMessages)
    (other : TopicPartition) :
    (InMemoryTransport.pollPartition b maxMessages (batch, t) place).2.position b other
      = if other = place then
          t.position b place + (((b.logs place).drop (t.position b place)).take
            (maxMessages - batch.length)).length
        else t.position b other := by
  unfold InMemoryTransport.pollPartition
  dsimp only
  rw [if_neg (not_le.mpr hroom)]
  unfold InMemoryTransport.position
  dsimp only
  by_cases hother : other = place
  · rw [if_pos hother, hother, Function.update_self, Option.getD_some]
  · rw [if_neg hother, Function.update_of_ne hother]

theorem Fetched.turn (h : Fetched b t₀ batch₀ batch t) (maxMessages : ℕ)
    (place : TopicPartition) :
    Fetched b t₀ batch₀ (InMemoryTransport.pollPartition b maxMessages (batch, t) place).1
      (InMemoryTransport.pollPartition b maxMessages (batch, t) place).2 := by
  by_cases hroom : batch.length < maxMessages
  · have hposition := @position_pollPartition b t place batch maxMessages hroom
    generalize hfetched : ((b.logs place).drop (t.position b place)).take
      (maxMessages - batch.length) = fetched at hposition
    have hbatch := @batch_pollPartition b t place batch maxMessages hroom
    rw [hfetched] at hbatch
    -- what is fetched stands in the log from the position on
    have hrecord : ∀ i, i < fetched.length →
        (b.logs place)[t.position b place + i]? = fetched[i]? := by
      intro i hi
      rw [← hfetched, List.length_take] at hi
      rw [← hfetched, List.getElem?_take, if_pos (by omega), List.getElem?_drop]
    have hmono : ∀ other, t.position b other ≤
        (InMemoryTransport.pollPartition b maxMessages (batch, t) place).2.position b other := by
      intro other
      rw [hposition]
      split_ifs with hother
      · rw [hother]
        omega
      · exact le_rfl
    refine ⟨?_, fun other => (h.le other).trans (hmono other), fun m hm => ?_,
      fun other o hle hlt => ?_, fun m hm => ?_, fun hplaced m hm => ?_⟩
    · unfold InMemoryTransport.pollPartition
      dsimp only
      rw [if_neg (not_le.mpr hroom), h.same]
    · rw [hbatch, List.mem_append] at hm
      rcases hm with hm | hm
      · refine (h.source m hm).imp_right fun ⟨other, o, hle, hlt, ho⟩ => ?_
        exact ⟨other, o, hle, hlt.trans_le (hmono other), ho⟩
      · obtain ⟨i, hi, rfl⟩ := List.mem_iff_getElem.mp hm
        refine Or.inr ⟨place, t.position b place + i, ?_, ?_, ?_⟩
        · exact (h.le place).trans (Nat.le_add_right ..)
        · rw [hposition, if_pos rfl]
          omega
        · rw [hrecord i hi, List.getElem?_eq_getElem hi]
    · rw [hbatch]
      by_cases hold : o < t.position b other
      · obtain ⟨m, hm, ho⟩ := h.delivered other o hle hold
        exact ⟨m, List.mem_append_left _ hm, ho⟩
      · rw [hposition] at hlt
        split_ifs at hlt with hother
        · subst hother
          have hi : o - t.position b other < fetched.length := by omega
          refine ⟨fetched[o - t.position b other], List.mem_append_right _ (List.getElem_mem hi), ?_⟩
          have ho := hrecord _ hi
          rw [Nat.add_sub_cancel' (not_lt.mp hold), List.getElem?_eq_getElem hi] at ho
          exact ho
        · exact absurd hlt hold
    · rw [hbatch]
      exact List.mem_append_left _ (h.keeps m hm)
    · rw [hbatch, List.count_append]
      have hbefore := h.once hplaced m hm
      by_cases hmem : m ∈ fetched
      · -- what is fetched now is not before the position, so it has not been fetched yet
        have hnew : m ∉ batch := by
          intro hold
          obtain ⟨i, hi, rfl⟩ := List.mem_iff_getElem.mp hmem
          obtain ⟨other, o, -, hlt, ho⟩ := (h.source _ hold).resolve_left hm
          have hhere := hplaced place _ _ ((hrecord i hi).trans (List.getElem?_eq_getElem hi))
          have hthere := hplaced other o _ ho
          rw [← hthere.1, hhere.1, ← hthere.2, hhere.2] at hlt
          omega
        have hnodup : fetched.Nodup := by
          rw [← hfetched]
          exact (hplaced.nodup place).sublist
            ((List.take_sublist ..).trans (List.drop_sublist ..))
        rw [List.count_eq_zero.mpr hnew, zero_add]
        exact List.nodup_iff_count_le_one.mp hnodup m
      · rw [List.count_eq_zero.mpr hmem, add_zero]
        exact hbefore
  · rw [pollPartition_of_full hroom]
    exact h

theorem Fetched.turns (h : Fetched b t₀ batch₀ batch t) (maxMessages : ℕ)
    (places : List TopicPartition) :
    Fetched b t₀ batch₀
      (places.foldl (InMemoryTransport.pollPartition b maxMessages) (batch, t)).1
      (places.foldl (InMemoryTransport.pollPartition b maxMessages) (batch, t)).2 := by
  induction places generalizing batch t with
  | nil => exact h
  | cons place rest ih => exact ih (h.turn maxMessages place)

/-! ## A poll -/

variable {maxMessages : ℤ}

theorem poll_eq_ok (h : t.poll b maxMessages = .ok (batch, t')) :
    t.started = true ∧ 1 ≤ maxMessages ∧
      (t.places b).foldl (InMemoryTransport.pollPartition b maxMessages.toNat)
        (t.chaosPending.take maxMessages.toNat,
          { t with chaosPending := t.chaosPending.drop maxMessages.toNat }) = (batch, t') := by
  unfold InMemoryTransport.poll at h
  by_cases hstarted : t.started = true
  · rw [if_neg (not_not_intro hstarted)] at h
    by_cases hmax : maxMessages < 1
    · rw [if_pos hmax] at h
      cases h
    · rw [if_neg hmax] at h
      exact ⟨hstarted, not_lt.mp hmax, Except.ok.inj h⟩
  · rw [if_pos hstarted] at h
    cases h

/-- A poll delivers the records between the old and the new positions, and duplicates. -/
theorem poll_fetched (h : t.poll b maxMessages = .ok (batch, t')) :
    Fetched b { t with chaosPending := t.chaosPending.drop maxMessages.toNat }
      (t.chaosPending.take maxMessages.toNat) batch t' := by
  obtain ⟨-, -, hfold⟩ := poll_eq_ok h
  have hturns := (fetched_refl b { t with chaosPending := t.chaosPending.drop maxMessages.toNat }
    (t.chaosPending.take maxMessages.toNat)).turns maxMessages.toNat (t.places b)
  rw [hfold] at hturns
  exact hturns

theorem position_turns_of_not_mem (maxMessages : ℕ) {rest : List TopicPartition}
    (hplace : place ∉ rest) :
    (rest.foldl (InMemoryTransport.pollPartition b maxMessages) (batch, t)).2.position b place
      = t.position b place := by
  induction rest generalizing batch t with
  | nil => rfl
  | cons head rest ih =>
    rw [List.mem_cons, not_or] at hplace
    have hturn : (InMemoryTransport.pollPartition b maxMessages (batch, t) head).2.position b place
        = t.position b place := by
      by_cases hroom : batch.length < maxMessages
      · rw [position_pollPartition hroom, if_neg hplace.1]
      · rw [pollPartition_of_full hroom]
    exact (ih hplace.2).trans hturn

theorem poll_assigned (hplaced : b.Placed)
    (h : t.poll b maxMessages = .ok (batch, t')) (hm : m ∈ batch) :
    m ∈ t.chaosPending ∨ m.place ∈ t.places b := by
  rcases (poll_fetched h).source m hm with hm | ⟨place, o, hle, hlt, ho⟩
  · exact Or.inl (List.mem_of_mem_take hm)
  · refine Or.inr (by_contra fun hnot => ?_)
    obtain ⟨-, -, hfold⟩ := poll_eq_ok h
    obtain ⟨rfl, -⟩ := hplaced place o m ho
    have hsame := @position_turns_of_not_mem b
      { t with chaosPending := t.chaosPending.drop maxMessages.toNat } m.place
      (t.chaosPending.take maxMessages.toNat) maxMessages.toNat (t.places b) hnot
    rw [hfold] at hsame
    dsimp only at hsame
    omega

/-! ## Polls that follow one another -/

inductive Delivers (b : InMemoryBroker) (maxMessages : ℤ) (m : ModelTransportMessage) :
    InMemoryTransport → Prop
  | now {t t' : InMemoryTransport} {batch : List ModelTransportMessage} :
      t.poll b maxMessages = .ok (batch, t') → m ∈ batch → Delivers b maxMessages m t
  | later {t t' : InMemoryTransport} {batch : List ModelTransportMessage} :
      t.poll b maxMessages = .ok (batch, t') → Delivers b maxMessages m t' →
        Delivers b maxMessages m t

/-- The number of records of the partitions that have not been fetched. -/
def undelivered (b : InMemoryBroker) (t : InMemoryTransport)
    (places : Finset TopicPartition) : ℕ :=
  ∑ place ∈ places, ((b.logs place).length - t.position b place)

theorem undelivered_pollPartition (maxMessages : ℕ) {places : Finset TopicPartition}
    (hplace : place ∈ places) :
    let turn := InMemoryTransport.pollPartition b maxMessages (batch, t) place
    turn.1.length + undelivered b turn.2 places = batch.length + undelivered b t places := by
  intro turn
  by_cases hroom : batch.length < maxMessages
  · have hposition : ∀ other, turn.2.position b other = _ :=
      @position_pollPartition b t place batch maxMessages hroom
    have hbatch : turn.1 = _ := batch_pollPartition hroom
    have hothers : ∑ other ∈ places.erase place,
          ((b.logs other).length - turn.2.position b other)
        = ∑ other ∈ places.erase place, ((b.logs other).length - t.position b other) := by
      refine Finset.sum_congr rfl fun other hother => ?_
      rw [hposition, if_neg (Finset.ne_of_mem_erase hother)]
    have hhere := hposition place
    rw [if_pos rfl] at hhere
    unfold undelivered
    rw [← Finset.add_sum_erase _ _ hplace, hothers, ← Finset.add_sum_erase _ _ hplace, hhere,
      hbatch, List.length_append, List.length_take, List.length_drop]
    omega
  · have hfull : turn = (batch, t) := pollPartition_of_full hroom
    rw [hfull]

theorem undelivered_turns (maxMessages : ℕ) {places : Finset TopicPartition}
    {rest : List TopicPartition} (hrest : ∀ place ∈ rest, place ∈ places) :
    let turns := rest.foldl (InMemoryTransport.pollPartition b maxMessages) (batch, t)
    turns.1.length + undelivered b turns.2 places = batch.length + undelivered b t places := by
  induction rest generalizing batch t with
  | nil => rfl
  | cons place rest ih =>
    exact (ih fun other hother => hrest other (List.mem_cons_of_mem _ hother)).trans
      (undelivered_pollPartition maxMessages (hrest place List.mem_cons_self))

theorem length_le_turns (maxMessages : ℕ) (rest : List TopicPartition) :
    batch.length ≤
      (rest.foldl (InMemoryTransport.pollPartition b maxMessages) (batch, t)).1.length := by
  induction rest generalizing batch t with
  | nil => exact le_rfl
  | cons place rest ih =>
    have hturn : batch.length
        ≤ (InMemoryTransport.pollPartition b maxMessages (batch, t) place).1.length := by
      by_cases hroom : batch.length < maxMessages
      · rw [batch_pollPartition hroom, List.length_append]
        omega
      · rw [pollPartition_of_full hroom]
    exact hturn.trans ih

theorem log_le_position_of_room {maxMessages : ℕ} {rest : List TopicPartition}
    (hroom : (rest.foldl (InMemoryTransport.pollPartition b maxMessages) (batch, t)).1.length
      < maxMessages) (hplace : place ∈ rest) :
    (b.logs place).length ≤
      (rest.foldl (InMemoryTransport.pollPartition b maxMessages) (batch, t)).2.position b place := by
  induction rest generalizing batch t with
  | nil => cases hplace
  | cons head rest ih =>
    rw [List.foldl_cons] at hroom ⊢
    rcases List.mem_cons.mp hplace with rfl | hplace
    · -- the turn of the partition has room left as well
      have hlater := (fetched_refl b (InMemoryTransport.pollPartition b maxMessages (batch, t)
        place).2 (InMemoryTransport.pollPartition b maxMessages (batch, t) place).1).turns
          maxMessages rest
      refine le_trans ?_ (hlater.le place)
      have hturn : (InMemoryTransport.pollPartition b maxMessages (batch, t) place).1.length
          < maxMessages := (length_le_turns maxMessages rest).trans_lt hroom
      have hbefore : batch.length < maxMessages :=
        (length_le_turns maxMessages [place]).trans_lt hturn
      rw [position_pollPartition hbefore, if_pos rfl]
      rw [batch_pollPartition hbefore, List.length_append, List.length_take,
        List.length_drop] at hturn
      rw [List.length_take, List.length_drop]
      omega
    · exact ih hroom hplace

theorem exists_poll (hstarted : t.started = true) (hmax : 1 ≤ maxMessages) :
    ∃ batch t', t.poll b maxMessages = .ok (batch, t') := by
  unfold InMemoryTransport.poll
  rw [if_neg (not_not_intro hstarted), if_neg (not_lt.mpr hmax)]
  exact ⟨_, _, rfl⟩

/-- A poll neither loses nor doubles a message, with what chaos holds back. -/
theorem poll_undelivered (h : t.poll b maxMessages = .ok (batch, t')) :
    batch.length + t'.chaosPending.length + undelivered b t' (t.places b).toFinset
        = t.chaosPending.length + undelivered b t (t.places b).toFinset ∧
      (t.chaosPending.take maxMessages.toNat).length ≤ batch.length ∧
      (batch.length < maxMessages.toNat →
        ∀ place ∈ t.places b, (b.logs place).length ≤ t'.position b place) := by
  obtain ⟨-, -, hfold⟩ := poll_eq_ok h
  refine ⟨?_, ?_, fun hroom place hplace => ?_⟩
  · have hpending : t'.chaosPending = t.chaosPending.drop maxMessages.toNat := by
      rw [(poll_fetched h).same]
    have hturns := @undelivered_turns b
      { t with chaosPending := t.chaosPending.drop maxMessages.toNat }
      (t.chaosPending.take maxMessages.toNat) maxMessages.toNat (t.places b).toFinset (t.places b)
      fun place hplace => List.mem_toFinset.mpr hplace
    rw [hfold] at hturns
    dsimp only at hturns
    have hsplit : (t.chaosPending.take maxMessages.toNat).length
        + (t.chaosPending.drop maxMessages.toNat).length = t.chaosPending.length := by
      rw [← List.length_append, List.take_append_drop]
    have hsame : undelivered b { t with chaosPending := t.chaosPending.drop maxMessages.toNat }
        (t.places b).toFinset = undelivered b t (t.places b).toFinset := rfl
    rw [hpending]
    omega
  · have hlength := @length_le_turns b
      { t with chaosPending := t.chaosPending.drop maxMessages.toNat }
      (t.chaosPending.take maxMessages.toNat) maxMessages.toNat (t.places b)
    rw [hfold] at hlength
    exact hlength
  · rw [show t' = _ from (congrArg Prod.snd hfold).symm]
    refine log_le_position_of_room ?_ hplace
    rw [hfold]
    exact hroom

theorem Delivers.position_le (hplaced : b.Placed) (h : Delivers b maxMessages m t) :
    m ∈ t.chaosPending ∨ t.position b m.place ≤ m.offset := by
  induction h with
  | now hpoll hm =>
    rcases (poll_fetched hpoll).source m hm with hm | ⟨place, o, hle, -, ho⟩
    · exact Or.inl (List.mem_of_mem_take hm)
    · obtain ⟨rfl, rfl⟩ := hplaced place o m ho
      exact Or.inr hle
  | later hpoll _ ih =>
    have hfetched := poll_fetched hpoll
    refine ih.imp (fun hm => ?_) fun hle => (hfetched.le m.place).trans hle
    rw [hfetched.same] at hm
    exact List.mem_of_mem_drop hm

/-- Polls that follow one another deliver what is to be duplicated, and the records of an assigned
partition that are not before the fetch position. -/
theorem delivers_iff (hplaced : b.Placed)
    (hrecord : (b.logs m.place)[m.offset]? = some m) (hassigned : m.place ∈ t.places b)
    (hstarted : t.started = true) (hmax : 1 ≤ maxMessages) :
    Delivers b maxMessages m t ↔
      m ∈ t.chaosPending ∨ t.position b m.place ≤ m.offset := by
  refine ⟨Delivers.position_le hplaced, fun h => ?_⟩
  induction hn : t.chaosPending.length + undelivered b t (t.places b).toFinset
    using Nat.strong_induction_on generalizing t with
  | h n ih =>
    obtain ⟨batch, t', hpoll⟩ := exists_poll (b := b) hstarted hmax
    have hfetched := poll_fetched hpoll
    obtain ⟨hmeasure, htaken, hroom⟩ := poll_undelivered hpoll
    by_cases hm : m ∈ batch
    · exact .now hpoll hm
    · have hpositive : 1 ≤ maxMessages.toNat := by omega
      have hoffset := (List.getElem?_eq_some_iff.mp hrecord).1
      have hfuture : m ∈ t.chaosPending.drop maxMessages.toNat ∨
          t'.position b m.place ≤ m.offset := by
        refine h.imp (fun hpending => ?_) fun hle => not_lt.mp fun hlt => ?_
        · rw [← List.take_append_drop maxMessages.toNat t.chaosPending] at hpending
          exact (List.mem_append.mp hpending).resolve_left fun htake =>
            hm (hfetched.keeps m htake)
        · obtain ⟨m', hm', ho⟩ := hfetched.delivered m.place m.offset hle hlt
          obtain rfl := Option.some.inj (hrecord.symm.trans ho)
          exact hm hm'
      have hfull : maxMessages.toNat ≤ batch.length := by
        rcases hfuture with hdrop | hle
        · -- the poll is full of duplicates
          have hlength := List.length_pos_of_mem hdrop
          rw [List.length_drop] at hlength
          rw [List.length_take] at htaken
          omega
        · refine not_lt.mp fun hlt => ?_
          have hlog := hroom hlt m.place hassigned
          omega
      have hpending : t'.chaosPending = t.chaosPending.drop maxMessages.toNat := by
        rw [hfetched.same]
      have hplaces : t'.places b = t.places b := by
        rw [hfetched.same]
        rfl
      refine .later hpoll (ih _ ?_ ?_ ?_ ?_ rfl)
      · rw [hplaces]
        omega
      · rw [hplaces]
        exact hassigned
      · rw [hfetched.same]
        exact hstarted
      · rw [hpending]
        exact hfuture

end

end OmnibaseCore.Dispatch
