import Mathlib.Data.List.Basic

/-! A queue whose deliveries are acknowledged: an item is ready, or delivered and not yet
settled, or gone; and the channel of the deliveries may close. Independent of what the items are
and of who consumes them. -/
namespace AckQueue
variable {α : Type*}

/-- How a delivery stands with its channel. -/
inductive Standing where
  | unsettled | settled
  /-- The channel is closed, and the tag means nothing. -/
  | lapsed
  deriving DecidableEq, Repr

structure Delivery (α : Type*) where
  item : α
  standing : Standing

namespace Delivery

def unsettled (d : Delivery α) : Bool :=
  match d.standing with
  | .unsettled => true
  | _ => false

def lapsed (d : Delivery α) : Bool :=
  match d.standing with
  | .lapsed => true
  | _ => false

theorem unsettled_iff {d : Delivery α} : d.unsettled = true ↔ d.standing = .unsettled := by
  cases h : d.standing <;> simp [unsettled, h]

theorem lapsed_iff {d : Delivery α} : d.lapsed = true ↔ d.standing = .lapsed := by
  cases h : d.standing <;> simp [lapsed, h]

end Delivery

/-- `out` has the deliveries by their tags. -/
structure Queue (α : Type*) where
  ready : List α
  out : List (Delivery α)

namespace Queue

def publish (q : Queue α) (a : α) : Queue α := { q with ready := q.ready ++ [a] }

def deliver (q : Queue α) : Queue α :=
  match q.ready with
  | a :: rest => ⟨rest, q.out ++ [⟨a, .unsettled⟩]⟩
  | [] => q

def unsettledItems (q : Queue α) : List α :=
  (q.out.filter Delivery.unsettled).map Delivery.item

/-- The channel closes: everything unsettled goes back. -/
def close (q : Queue α) : Queue α :=
  ⟨q.unsettledItems ++ q.ready, q.out.map fun d => { d with standing := .lapsed }⟩

/-- The consumer goes away altogether. -/
def restart (q : Queue α) : Queue α := ⟨q.unsettledItems ++ q.ready, []⟩

/-- The item of the delivery is gone. -/
def drop (q : Queue α) (n : Nat) : Queue α :=
  { q with out := q.out.modify n fun d => { d with standing := .settled } }

/-- A delivery that is settled for the second time is an error, and the channel closes. -/
def settle (q : Queue α) (n : Nat) : Queue α :=
  match q.out[n]?.map Delivery.standing with
  | some .unsettled => q.drop n
  | some .settled => q.close
  | _ => q

/-- Settled by giving the item back. -/
def giveBack (q : Queue α) (n : Nat) : Queue α :=
  match q.out[n]? with
  | some ⟨a, .unsettled⟩ => { q.drop n with ready := a :: q.ready }
  | _ => q.settle n

/-- All that was ever delivered, in order. -/
def delivered (q : Queue α) : List α := q.out.map Delivery.item

end Queue

def Holds (p : α → Prop) (q : Queue α) : Prop :=
  (∃ a ∈ q.ready, p a) ∨
    ∃ (n : Nat) (d : Delivery α), q.out[n]? = some d ∧ d.unsettled = true ∧ p d.item

/-- Held by another item than that of the delivery `n`. -/
def HoldsBeside (n : Nat) (p : α → Prop) (q : Queue α) : Prop :=
  (∃ a ∈ q.ready, p a) ∨
    ∃ (j : Nat) (d : Delivery α), j ≠ n ∧ q.out[j]? = some d ∧ d.unsettled = true ∧ p d.item

variable {p : α → Prop} {q : Queue α} {n : Nat}

theorem Holds.publish (h : Holds p q) (a : α) : Holds p (q.publish a) := by
  obtain ⟨b, hb, hp⟩ | hout := h
  · exact .inl ⟨b, List.mem_append_left _ hb, hp⟩
  · exact .inr hout

theorem holds_publish {a : α} (h : p a) : Holds p (q.publish a) :=
  .inl ⟨a, List.mem_append_right _ List.mem_cons_self, h⟩

theorem deliver_cons {a : α} {rest : List α} (h : q.ready = a :: rest) :
    q.deliver = ⟨rest, q.out ++ [⟨a, .unsettled⟩]⟩ := by
  rw [Queue.deliver, h]

theorem getElem?_deliver {a : α} {rest : List α} (h : q.ready = a :: rest) {j : Nat}
    (hj : j ≠ q.out.length) : q.deliver.out[j]? = q.out[j]? := by
  rw [deliver_cons h]
  obtain hlt | hge := Nat.lt_or_ge j q.out.length
  · exact List.getElem?_append_left hlt
  · rw [List.getElem?_eq_none (by simp; omega), List.getElem?_eq_none (by omega)]

theorem getElem?_deliver_length {a : α} {rest : List α} (h : q.ready = a :: rest) :
    q.deliver.out[q.out.length]? = some ⟨a, .unsettled⟩ := by
  rw [deliver_cons h]
  simp

theorem delivered_deliver {a : α} {rest : List α} (h : q.ready = a :: rest) :
    q.deliver.delivered = q.delivered ++ [a] := by
  simp [deliver_cons h, Queue.delivered]

theorem deliver_nil (h : q.ready = []) : q.deliver = q := by
  rw [Queue.deliver, h]

theorem Holds.deliver (h : Holds p q) : Holds p q.deliver := by
  unfold Queue.deliver
  split
  next a rest hready =>
    obtain ⟨b, hb, hp⟩ | ⟨j, d, hd, hun, hp⟩ := h
    · rw [hready] at hb
      obtain rfl | hb := List.mem_cons.mp hb
      · exact .inr ⟨q.out.length, ⟨b, .unsettled⟩, by simp, rfl, hp⟩
      · exact .inl ⟨b, hb, hp⟩
    · refine .inr ⟨j, d, ?_, hun, hp⟩
      rw [List.getElem?_append_left (List.getElem?_eq_some_iff.mp hd).1]
      exact hd
  next => exact h

/-- What to settle a delivery comes to. -/
theorem settle_cases (q : Queue α) (n : Nat) :
    (∃ d, q.out[n]? = some d ∧ d.unsettled = true ∧ q.settle n = q.drop n) ∨
    (∃ d, q.out[n]? = some d ∧ d.standing = .settled ∧ q.settle n = q.close) ∨
    (∀ d, q.out[n]? = some d → d.lapsed = true) ∧ q.settle n = q := by
  cases hd : q.out[n]? with
  | none => exact .inr (.inr ⟨fun d h => (by cases h), by simp [Queue.settle, hd]⟩)
  | some d =>
    cases hs : d.standing with
    | unsettled =>
      exact .inl ⟨d, rfl, Delivery.unsettled_iff.mpr hs, by simp [Queue.settle, hd, hs]⟩
    | settled => exact .inr (.inl ⟨d, rfl, hs, by simp [Queue.settle, hd, hs]⟩)
    | lapsed =>
      refine .inr (.inr ⟨fun d' h => ?_, by simp [Queue.settle, hd, hs]⟩)
      cases h
      exact Delivery.lapsed_iff.mpr hs

theorem settle_of_unsettled {d : Delivery α} (hd : q.out[n]? = some d)
    (hun : d.unsettled = true) : q.settle n = q.drop n := by
  simp [Queue.settle, hd, Delivery.unsettled_iff.mp hun]

theorem giveBack_cases (q : Queue α) (n : Nat) :
    (∃ d, q.out[n]? = some d ∧ d.unsettled = true ∧
      q.giveBack n = { q.drop n with ready := d.item :: q.ready }) ∨
    (∀ d, q.out[n]? = some d → d.unsettled = false) ∧ q.giveBack n = q.settle n := by
  cases hd : q.out[n]? with
  | none => exact .inr ⟨fun d h => (by cases h), by simp [Queue.giveBack, hd]⟩
  | some d =>
    obtain ⟨a, standing⟩ := d
    cases standing with
    | unsettled => exact .inl ⟨_, rfl, rfl, by simp [Queue.giveBack, hd]⟩
    | _ =>
      refine .inr ⟨fun d' h => ?_, by simp [Queue.giveBack, hd]⟩
      cases h
      rfl

theorem drop_other {j : Nat} (hj : j ≠ n) : (q.drop n).out[j]? = q.out[j]? :=
  List.getElem?_modify_ne _ _ (Ne.symm hj)

theorem getElem?_drop_self :
    (q.drop n).out[n]? = q.out[n]?.map fun d => { d with standing := .settled } :=
  List.getElem?_modify_eq _ _ _

theorem drop_self {d : Delivery α} (h : (q.drop n).out[n]? = some d) : d.unsettled = false := by
  rw [getElem?_drop_self] at h
  obtain ⟨d', -, rfl⟩ := Option.map_eq_some_iff.mp h
  rfl

theorem delivered_drop (q : Queue α) (n : Nat) : (q.drop n).delivered = q.delivered := by
  refine List.ext_getElem? fun j => ?_
  by_cases hj : j = n
  · subst hj
    simp [Queue.delivered, getElem?_drop_self, Function.comp_def]
  · simp [Queue.delivered, drop_other hj]

theorem delivered_close (q : Queue α) : q.close.delivered = q.delivered := by
  simp [Queue.delivered, Queue.close, Function.comp_def]

/-- To settle a delivery, in either way, changes nothing about what was ever delivered. -/
theorem delivered_settle (q : Queue α) (n : Nat) : (q.settle n).delivered = q.delivered := by
  obtain ⟨d, -, -, h⟩ | ⟨d, -, -, h⟩ | ⟨-, h⟩ := settle_cases q n
  · rw [h, delivered_drop]
  · rw [h, delivered_close]
  · rw [h]

theorem delivered_giveBack (q : Queue α) (n : Nat) : (q.giveBack n).delivered = q.delivered := by
  obtain ⟨d, -, -, h⟩ | ⟨-, h⟩ := giveBack_cases q n
  · rw [h]
    exact delivered_drop q n
  · rw [h, delivered_settle]

theorem item_of_delivered {q' : Queue α} (h : q'.delivered = q.delivered) {j : Nat}
    {d : Delivery α} (hd : q'.out[j]? = some d) : ∃ d', q.out[j]? = some d' ∧ d'.item = d.item := by
  have hitem : q'.delivered[j]? = some d.item := by simp [Queue.delivered, hd]
  rw [h, Queue.delivered, List.getElem?_map] at hitem
  exact Option.map_eq_some_iff.mp hitem

theorem mem_unsettledItems {d : Delivery α} (hd : q.out[n]? = some d) (hun : d.unsettled = true) :
    d.item ∈ q.unsettledItems :=
  List.mem_map_of_mem (List.mem_filter.mpr ⟨List.mem_of_getElem? hd, hun⟩)

theorem of_mem_unsettledItems {a : α} (h : a ∈ q.unsettledItems) :
    ∃ (j : Nat) (d : Delivery α), q.out[j]? = some d ∧ d.unsettled = true ∧ d.item = a := by
  obtain ⟨d, hd, rfl⟩ := List.mem_map.mp h
  obtain ⟨j, hj⟩ := List.getElem?_of_mem (List.mem_filter.mp hd).1
  exact ⟨j, d, hj, (List.mem_filter.mp hd).2, rfl⟩

theorem mem_settle_ready {a : α} (h : a ∈ (q.settle n).ready) :
    a ∈ q.ready ∨ a ∈ q.unsettledItems := by
  obtain ⟨d, -, -, hsettle⟩ | ⟨d, -, -, hsettle⟩ | ⟨-, hsettle⟩ := settle_cases q n
  · rw [hsettle] at h
    exact .inl h
  · rw [hsettle] at h
    exact (List.mem_append.mp h).symm
  · rw [hsettle] at h
    exact .inl h

theorem mem_giveBack_ready {a : α} (h : a ∈ (q.giveBack n).ready) :
    a ∈ q.ready ∨ a ∈ q.unsettledItems := by
  obtain ⟨d, hd, hun, hback⟩ | ⟨-, hback⟩ := giveBack_cases q n
  · rw [hback] at h
    obtain rfl | h := List.mem_cons.mp h
    · exact .inr (mem_unsettledItems hd hun)
    · exact .inl h
  · rw [hback] at h
    exact mem_settle_ready h

theorem holds_unsettledItems (h : Holds p q) (out : List (Delivery α)) :
    Holds p ⟨q.unsettledItems ++ q.ready, out⟩ := by
  obtain ⟨a, ha, hp⟩ | ⟨j, d, hd, hun, hp⟩ := h
  · exact .inl ⟨a, List.mem_append_right _ ha, hp⟩
  · exact .inl ⟨d.item, List.mem_append_left _ (mem_unsettledItems hd hun), hp⟩

theorem holds_close_iff : Holds p q.close ↔ Holds p q := by
  constructor
  · intro h
    obtain ⟨a, ha, hp⟩ | ⟨j, d, hd, hun, -⟩ := h
    · obtain ha | ha := List.mem_append.mp ha
      · obtain ⟨j, d, hd, hun, rfl⟩ := of_mem_unsettledItems ha
        exact .inr ⟨j, d, hd, hun, hp⟩
      · exact .inl ⟨a, ha, hp⟩
    · rw [Queue.close, List.getElem?_map] at hd
      obtain ⟨d', -, rfl⟩ := Option.map_eq_some_iff.mp hd
      cases hun
  · exact fun h => holds_unsettledItems h _

theorem HoldsBeside.holds (h : HoldsBeside n p q) : Holds p q :=
  h.imp_right fun ⟨j, d, _, hd, hun, hp⟩ => ⟨j, d, hd, hun, hp⟩

theorem beside_of_idle (hn : ∀ d, q.out[n]? = some d → d.unsettled = false) (h : Holds p q) :
    HoldsBeside n p q := by
  obtain hready | ⟨j, d, hd, hun, hp⟩ := h
  · exact .inl hready
  · refine .inr ⟨j, d, fun hj => ?_, hd, hun, hp⟩
    rw [hj] at hd
    rw [hn d hd] at hun
    cases hun

theorem holds_drop_iff : Holds p (q.drop n) ↔ HoldsBeside n p q := by
  constructor
  · intro h
    obtain hready | ⟨j, d, hd, hun, hp⟩ := h
    · exact .inl hready
    · by_cases hj : j = n
      · rw [hj] at hd
        rw [drop_self hd] at hun
        cases hun
      · rw [drop_other hj] at hd
        exact .inr ⟨j, d, hj, hd, hun, hp⟩
  · intro h
    obtain hready | ⟨j, d, hj, hd, hun, hp⟩ := h
    · exact .inl hready
    · exact .inr ⟨j, d, by rw [drop_other hj, hd], hun, hp⟩

/-- A second settlement loses nothing, and the first one nothing but its own item. -/
theorem holds_settle_iff : Holds p (q.settle n) ↔ HoldsBeside n p q := by
  obtain ⟨d, -, -, h⟩ | ⟨d, hd, hsettled, h⟩ | ⟨hlapsed, h⟩ := settle_cases q n
  · rw [h, holds_drop_iff]
  · rw [h, holds_close_iff]
    refine ⟨beside_of_idle fun d' hd' => ?_, HoldsBeside.holds⟩
    cases hd.symm.trans hd'
    simp [Delivery.unsettled, hsettled]
  · rw [h]
    refine ⟨beside_of_idle fun d' hd' => ?_, HoldsBeside.holds⟩
    simp [Delivery.unsettled, Delivery.lapsed_iff.mp (hlapsed d' hd')]

theorem Holds.beside (h : Holds p q) (hn : ∀ d, q.out[n]? = some d → ¬p d.item) :
    HoldsBeside n p q := by
  obtain hready | ⟨j, d, hd, hun, hp⟩ := h
  · exact .inl hready
  · refine .inr ⟨j, d, fun hj => ?_, hd, hun, hp⟩
    rw [hj] at hd
    exact hn d hd hp

theorem item_of_deliver {j : Nat} {d : Delivery α} (h : q.deliver.out[j]? = some d) :
    q.out[j]? = some d ∨ (j = q.out.length ∧ d.item ∈ q.ready) := by
  unfold Queue.deliver at h
  split at h
  next a rest hready =>
    obtain hj | rfl | hj := Nat.lt_trichotomy j q.out.length
    · rw [List.getElem?_append_left hj] at h
      exact .inl h
    · rw [List.getElem?_concat_length] at h
      cases h
      exact .inr ⟨rfl, by rw [hready]; exact List.mem_cons_self⟩
    · rw [List.getElem?_eq_none (by simp; omega)] at h
      cases h
  next => exact .inl h

theorem mem_deliver_ready {a : α} (h : a ∈ q.deliver.ready) : a ∈ q.ready := by
  unfold Queue.deliver at h
  split at h
  next b rest hready =>
    rw [hready]
    exact List.mem_cons_of_mem b h
  next => exact h

theorem Holds.giveBack (h : Holds p q) (n : Nat) : Holds p (q.giveBack n) := by
  obtain ⟨d, hd, hun, hback⟩ | ⟨hidle, hback⟩ := giveBack_cases q n
  · rw [hback]
    obtain ⟨a, ha, hp⟩ | ⟨j, d', hd', hun', hp⟩ := h
    · exact .inl ⟨a, List.mem_cons_of_mem _ ha, hp⟩
    · by_cases hj : j = n
      · rw [hj, hd] at hd'
        cases hd'
        exact .inl ⟨d.item, List.mem_cons_self, hp⟩
      · exact .inr ⟨j, d', (drop_other hj).trans hd', hun', hp⟩
  · rw [hback]
    exact holds_settle_iff.mpr (beside_of_idle hidle h)

theorem unsettledItems_deliver {a : α} {rest : List α} (h : q.ready = a :: rest) :
    q.deliver.unsettledItems = q.unsettledItems ++ [a] := by
  rw [Queue.unsettledItems, deliver_cons h, List.filter_append, List.map_append]
  rfl

theorem unsettledItems_close (q : Queue α) : q.close.unsettledItems = [] := by
  simp [Queue.unsettledItems, Queue.close, Delivery.unsettled]

theorem length_unsettledItems_drop (q : Queue α) (n : Nat) :
    (q.drop n).unsettledItems.length ≤ q.unsettledItems.length := by
  simp only [Queue.unsettledItems, Queue.drop, List.length_map, ← List.countP_eq_length_filter]
  generalize q.out = out
  induction out generalizing n with
  | nil => simp
  | cons d out ih =>
    cases n with
    | zero => simp [List.countP_cons, Delivery.unsettled]
    | succ n =>
      have htail := ih n
      simp only [List.modify_succ_cons, List.countP_cons]
      omega

end AckQueue
