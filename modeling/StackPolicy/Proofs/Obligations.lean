import StackPolicy.Transfer

/-!
# Which types the ledger holds

An obligation adds its type and nothing else, so a pass adds the types of the
items that it lays an obligation on.
-/

namespace StackPolicy

/-- Whether a delivery hands a value of the given type to another context. -/
def Delivery.Moves (delivery : Delivery) (ty : String) : Prop :=
  ty ∈ delivery.task.inputs ∧
    delivery.sender.mustTransfer delivery.task.core delivery.task.priority = true

/-- Whether a message to a declared task hands a value of the given type to another context. -/
def Message.Moves (app : App) (message : Message) (ty : String) : Prop :=
  ∃ delivery, message.deliver app = .ok delivery ∧ delivery.Moves ty

namespace Ledger

/-- A pass that adds a type per item leaves the types that it started with and those of
all items. -/
theorem mem_transfer_foldl {State Item : Type} {step : State → Item → State}
    (types : State → SortedSet String) (Adds : Item → String → Prop)
    (adds : ∀ state item ty, ty ∈ types (step state item) ↔ ty ∈ types state ∨ Adds item ty)
    (items : List Item) (state : State) (ty : String) :
    ty ∈ types (items.foldl step state) ↔
      ty ∈ types state ∨ ∃ item ∈ items, Adds item ty := by
  induction items generalizing state with
  | nil => simp
  | cons item items ih =>
      rw [List.foldl_cons, ih, adds]
      simp [or_assoc]

theorem types_note (ledger : Ledger) (entry : Entry) (obligation : Obligation) :
    (ledger.note entry).types obligation = ledger.types obligation := by
  cases obligation <;> rfl

theorem types_add (ledger : Ledger) (obligation : Obligation) (ty : String) :
    (ledger.add obligation ty).types obligation = (ledger.types obligation).insert ty := by
  cases obligation <;> rfl

theorem mem_types_require (ledger : Ledger) (obligation : Obligation)
    (required reason ty : String) :
    ty ∈ (ledger.require obligation required reason).types obligation ↔
      ty ∈ ledger.types obligation ∨ ty = required := by
  unfold require
  split
  · rename_i present
    constructor
    · exact .inl
    · rintro (hold | rfl)
      · exact hold
      · exact present
  · rw [types_note, types_add, SortedSet.mem_insert, or_comm]

/-- An obligation leaves the types with the other obligation as they are. -/
theorem types_require_of_ne {obligation other : Obligation} (apart : other ≠ obligation)
    (ledger : Ledger) (ty reason : String) :
    (ledger.require obligation ty reason).types other = ledger.types other := by
  unfold require
  split
  · rfl
  · rw [types_note]
    cases obligation <;> cases other <;> first | exact absurd rfl apart | rfl

theorem mem_transfer_require (ledger : Ledger) (required reason ty : String) :
    ty ∈ (ledger.require .transfer required reason).transfer ↔
      ty ∈ ledger.transfer ∨ ty = required :=
  ledger.mem_types_require .transfer required reason ty

theorem mem_transfer_requireAll (ledger : Ledger) (types : List String) (reason ty : String) :
    ty ∈ (ledger.requireAll .transfer types reason).transfer ↔
      ty ∈ ledger.transfer ∨ ty ∈ types := by
  unfold requireAll
  rw [mem_transfer_foldl Ledger.transfer (fun required ty => ty = required)
    fun ledger required ty => mem_transfer_require ledger required reason ty]
  simp

/-- The inputs of a message move if its sender is another context in any respect. -/
theorem mem_transfer_requireMessage (ledger : Ledger) (delivery : Delivery) (verb ty : String) :
    ty ∈ (ledger.requireMessage delivery verb).transfer ↔
      ty ∈ ledger.transfer ∨ delivery.Moves ty := by
  unfold requireMessage Delivery.Moves
  split
  · rename_i moves
    rw [mem_transfer_requireAll]
    simp [moves]
  · rename_i stays
    simp [stays]

theorem mem_transfer_requireLate (ownerships : Ownerships) (locations : Locations)
    (ledger : Ledger) (name : String) (resource : Resource) (ty : String) :
    ty ∈ (requireLate ownerships locations ledger name resource).transfer ↔
      ty ∈ ledger.transfer ∨
        (ty = resource.ty ∧
          ((locations.get? name).any Location.isCrossInitialized = true ∨
            ∃ ownership, ownerships.get? name = some ownership ∧ ownership ≠ .byIdle)) := by
  unfold requireLate
  split
  · rename_i cross
    rw [mem_transfer_require]
    simp [cross]
  · rename_i plain
    cases ownerships.get? name with
    | none => simp [plain]
    | some ownership =>
        simp only [plain, Option.some.injEq, exists_eq_left']
        split
        · rename_i idle
          simp [idle]
        · rename_i other
          rw [mem_transfer_require]
          simp [other]

theorem mem_transfer_requireLateResources (app : App) (ownerships : Ownerships)
    (locations : Locations) (ledger : Ledger) (ty : String) :
    ty ∈ (ledger.requireLateResources app ownerships locations).transfer ↔
      ty ∈ ledger.transfer ∨
        ∃ row ∈ app.lateResources.rows, ty = row.2.ty ∧
          ((locations.get? row.1).any Location.isCrossInitialized = true ∨
            ∃ ownership, ownerships.get? row.1 = some ownership ∧ ownership ≠ .byIdle) := by
  unfold requireLateResources
  exact mem_transfer_foldl Ledger.transfer _
    (fun ledger row ty => mem_transfer_requireLate ownerships locations ledger row.1 row.2 ty)
    app.lateResources.rows ledger ty

theorem mem_transfer_requireShared (app : App) (ownerships : Ownerships) (ledger : Ledger)
    (name ty : String) :
    ty ∈ (requireShared app ownerships ledger name).transfer ↔
      ty ∈ ledger.transfer ∨
        ∃ resource, app.resources.get? name = some resource ∧ ty = resource.ty ∧
          ∃ ownership, ownerships.get? name = some ownership ∧ ownership ≠ .byIdle := by
  unfold requireShared
  cases ownerships.get? name with
  | none => simp
  | some ownership =>
      cases app.resources.get? name with
      | none => simp
      | some resource =>
          simp only [Option.some.injEq, exists_eq_left']
          split
          · rename_i idle
            simp [idle]
          · rename_i other
            rw [mem_transfer_require]
            simp [other]

theorem mem_transfer_requireInitResources (app : App) (ownerships : Ownerships)
    (ledger : Ledger) (ty : String) :
    ty ∈ (ledger.requireInitResources app ownerships).transfer ↔
      ty ∈ ledger.transfer ∨
        ∃ name ∈ app.inits.flatMap (fun init => init.resources.keys),
          ∃ resource, app.resources.get? name = some resource ∧ ty = resource.ty ∧
            ∃ ownership, ownerships.get? name = some ownership ∧ ownership ≠ .byIdle := by
  unfold requireInitResources
  exact mem_transfer_foldl Ledger.transfer _
    (fun ledger name ty => mem_transfer_requireShared app ownerships ledger name ty)
    (app.inits.flatMap fun init => init.resources.keys) ledger ty

end Ledger

end StackPolicy
