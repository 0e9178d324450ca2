import StackPolicy.Proofs.ConcurrentReads

/-!
# Ownerships of any stream of accesses

Whatever stream is folded, the ownership of a resource is a function of the
priorities at which the stream accesses it.  If the stream accesses every
resource in a single mode, the types to be read safely are those of its shared
resources that end up contended, so neither depends on the order of the stream.
-/

namespace StackPolicy

/-- Whether an access contends for its resource. -/
def Access.isPrioritized (access : Access) : Bool := access.priority.isSome

namespace Ownership

/-! ## The ownership of a list of priorities -/

/-- The ownership of a resource that is accessed at the given priorities. -/
def ofPriorities : List Int → Option Ownership
  | [] => none
  | [priority] => some (owned priority)
  | first :: second :: rest =>
      if ∀ other ∈ second :: rest, other = first then some (coOwned first)
      else (first :: second :: rest).max?.map contended

theorem summarizes_ofPriorities (priorities : List Int) :
    Summarizes (ofPriorities priorities) priorities := by
  match priorities with
  | [] => rfl
  | [priority] => rfl
  | first :: second :: rest =>
      rw [ofPriorities]
      split
      · rename_i hsame
        refine ⟨by simp, fun other member => ?_⟩
        rcases List.mem_cons.mp member with rfl | hrest
        · rfl
        · exact hsame other hrest
      · rename_i hapart
        obtain ⟨ceiling, hceiling⟩ : ∃ ceiling, (first :: second :: rest).max? = some ceiling :=
          ⟨_, List.max?_cons'⟩
        obtain ⟨hmember, hbound⟩ := List.max?_eq_some_iff.mp hceiling
        rw [hceiling]
        refine ⟨hmember, hbound, ?_⟩
        obtain ⟨other, hother, hne⟩ : ∃ other ∈ second :: rest, other ≠ first := by
          by_contra hnone
          exact hapart fun other member => by_contra fun hne => hnone ⟨other, member, hne⟩
        have hfirst := hbound first List.mem_cons_self
        have hle := hbound other (List.mem_cons_of_mem _ hother)
        -- the first priority lies below the ceiling, unless it is the ceiling
        by_cases hlt : first < ceiling
        · exact ⟨first, List.mem_cons_self, hlt⟩
        · exact ⟨other, List.mem_cons_of_mem _ hother, by omega⟩

end Ownership

namespace Ownerships

/-! ## Resources in the order of their accesses -/

theorem keys_update (ownerships : Ownerships) (ledger : Ledger) (resource : String)
    (updated : Ownership) :
    (ownerships.update ledger resource updated).1.keys =
      (ownerships.insert resource updated).keys := by
  unfold update
  by_cases hsame : ownerships.get? resource = some updated
  · have hpresent : resource ∈ ownerships.keys := Table.mem_keys_iff.mpr ⟨updated, hsame⟩
    simp [hsame, Table.keys_insert, hpresent]
  · simp [hsame]

/-- The resources that a stream accesses at some priority. -/
def contendedFor (accesses : List Access) : List String :=
  (accesses.filter Access.isPrioritized).map Access.resource

theorem keys_take {app : App} {state : Ownerships × Ledger} {read : List Access}
    (h : state.1.keys = (contendedFor read).eraseDups) (access : Access) :
    (take app state access).1.keys = (contendedFor (read ++ [access])).eraseDups := by
  unfold take contendedFor at *
  rw [List.filter_append, List.map_append]
  cases hpriority : access.priority with
  | none => simpa [Access.isPrioritized, hpriority] using h
  | some priority =>
      have hnew : ([access].filter Access.isPrioritized).map Access.resource =
          [access.resource] := by
        simp [Access.isPrioritized, hpriority]
      simp only [record, keys_update, hnew]
      exact Table.keys_insert_eraseDups h access.resource _

theorem keys_foldl_take (app : App) (accesses : List Access) (ledger : Ledger) :
    (accesses.foldl (take app) (∅, ledger)).1.keys = (contendedFor accesses).eraseDups :=
  foldl_of_concat
    (fun (read : List Access) (state : Ownerships × Ledger) =>
      state.1.keys = (contendedFor read).eraseDups)
    (fun _ _ access _ h => keys_take h access) (show _ = (contendedFor []).eraseDups from rfl)

/-! ## Accesses without a priority -/

/-- Leaving out accesses without a priority changes nothing, not even a failure. -/
theorem ofAccesses_filter (app : App) (accesses : List Access) (ledger : Ledger) :
    ofAccesses app (accesses.filter Access.isPrioritized) ledger =
      ofAccesses app accesses ledger := by
  have hskip : (fun (state : Ownerships × Ledger) (access : Access) =>
      if access.isPrioritized = true then addAccess app state access else pure state) =
        addAccess app := by
    funext state access
    cases hpriority : access.priority with
    | none => simp [Access.isPrioritized, addAccess, hpriority, pure, Except.pure]
    | some priority => simp [Access.isPrioritized, hpriority]
  unfold ofAccesses
  rw [List.foldlM_filter, hskip]

/-- The ownerships of a stream are those of the priorities of each resource, in the order in which
the resources are first contended for.  Accesses without a priority play no role. -/
theorem ofAccesses_eq_ofPriorities {accesses : List Access}
    (nonneg : ∀ access ∈ accesses, ∀ priority, access.priority = some priority → 0 ≤ priority)
    (app : App) (ledger : Ledger) :
    ∃ ownerships written, ofAccesses app accesses ledger = .ok (ownerships, written) ∧
      ownerships.keys = (contendedFor accesses).eraseDups ∧
      (∀ name, ownerships.get? name =
        Ownership.ofPriorities (Access.prioritiesOf name accesses)) ∧
      ofAccesses app (accesses.filter Access.isPrioritized) ledger =
        .ok (ownerships, written) := by
  have hfold : ofAccesses app accesses ledger = .ok (accesses.foldl (take app) (∅, ledger)) :=
    ofAccesses_eq_ok nonneg
  refine ⟨_, _, hfold, keys_foldl_take app accesses ledger, fun name => ?_, ?_⟩
  · exact (summarizes_get?_foldl_take app accesses ledger name).unique
      (Ownership.summarizes_ofPriorities _) (.refl _)
  · rw [ofAccesses_filter, hfold]

/-- Several contexts of both cores log; one bus is left to tasks of the same priority. -/
def logging : List Access :=
  [⟨0, none, "boot", .exclusive⟩, ⟨0, some 2, "log", .shared⟩, ⟨1, some 1, "bus", .exclusive⟩,
    ⟨1, some 5, "log", .shared⟩, ⟨0, none, "log", .shared⟩, ⟨1, some 1, "bus", .exclusive⟩,
    ⟨0, some 3, "log", .shared⟩, ⟨0, some 0, "led", .shared⟩]

def logger : App :=
  App.idling (.after 0) [("boot", ⟨"Boot", some "0"⟩), ("log", ⟨"Log", some "0"⟩),
    ("bus", ⟨"Bus", some "0"⟩), ("led", ⟨"Led", some "0"⟩)]

theorem ofAccesses_logging :
    (∀ access ∈ logging, ∀ priority, access.priority = some priority → 0 ≤ priority) ∧
      ∃ ownerships written, ofAccesses logger logging (.start true) = .ok (ownerships, written) ∧
        ownerships.keys = ["log", "bus", "led"] ∧
        ownerships.get? "log" = some (.contended 5) ∧
        ownerships.get? "bus" = some (.coOwned 1) ∧
        ownerships.get? "led" = some (.owned 0) ∧
        ownerships.get? "boot" = none := by
  have hnonneg : ∀ access ∈ logging, ∀ priority, access.priority = some priority →
      0 ≤ priority := by
    decide
  obtain ⟨ownerships, written, hfold, hkeys, hget, -⟩ :=
    ofAccesses_eq_ofPriorities hnonneg logger (.start true)
  refine ⟨hnonneg, ownerships, written, hfold, hkeys.trans (by decide +kernel), ?_, ?_, ?_, ?_⟩
  · exact (hget "log").trans (by decide)
  · exact (hget "bus").trans (by decide)
  · exact (hget "led").trans (by decide)
  · exact (hget "boot").trans (by decide)

/-! ## Accepted streams -/

/-- A fold that does not fail takes all accesses. -/
theorem foldl_take_of_ofAccesses {app : App} {accesses : List Access} {ledger : Ledger}
    {result : Ownerships × Ledger} (h : ofAccesses app accesses ledger = .ok result) :
    accesses.foldl (take app) (∅, ledger) = result :=
  foldl_eq_of_foldlM (fun _ _ _ hadded => (addAccess_eq_ok_iff.mp hadded).2) h

theorem priority_nonneg_of_ofAccesses {app : App} {access : Access} {accesses : List Access}
    {ledger : Ledger} {result : Ownerships × Ledger}
    (h : ofAccesses app (access :: accesses) ledger = .ok result) :
    ∀ priority, access.priority = some priority → 0 ≤ priority := by
  intro priority hpriority
  unfold ofAccesses at h
  rw [List.foldlM_cons] at h
  obtain ⟨_, hfirst, -⟩ := bind_eq_ok_iff.mp h
  have hcheck := (addAccess_eq_ok_iff.mp hfirst).1 priority hpriority
  exact Failure.checkBounds_eq_ok_iff.mp hcheck _ (List.mem_singleton_self _)

/-- No order of the accesses is refused exactly if no priority is negative. -/
theorem exists_ofAccesses_perm_iff {app : App} {accesses : List Access} {ledger : Ledger} :
    (∀ others, accesses.Perm others →
      ∃ ownerships written, ofAccesses app others ledger = .ok (ownerships, written)) ↔
      ∀ access ∈ accesses, ∀ priority, access.priority = some priority → 0 ≤ priority := by
  constructor
  · intro accepted access member
    obtain ⟨_, _, h⟩ := accepted _ (List.perm_cons_erase member)
    exact priority_nonneg_of_ofAccesses h
  · intro nonneg others same
    exact ⟨_, _, ofAccesses_eq_ok fun access member => nonneg access (same.mem_iff.mpr member)⟩

/-! ## Obligations to be read safely -/

theorem ownerships_take_congr (app : App) (ownerships : Ownerships) (ledger other : Ledger)
    (access : Access) :
    (take app (ownerships, ledger) access).1 = (take app (ownerships, other) access).1 := by
  unfold take
  cases access.priority with
  | none => rfl
  | some priority =>
      simp only [record, update]
      split <;> rfl

/-- What the ledger already holds does not change which obligations a fold adds. -/
theorem mem_concurrentRead_foldl_take (app : App) (accesses : List Access)
    (ownerships : Ownerships) (ledger : Ledger) (ty : String) :
    ty ∈ (accesses.foldl (take app) (ownerships, ledger)).2.concurrentRead ↔
      ty ∈ ledger.concurrentRead ∨
        ty ∈ (accesses.foldl (take app) (ownerships, .start true)).2.concurrentRead := by
  induction accesses generalizing ownerships ledger with
  | nil => simp [Ledger.start]
  | cons access accesses ih =>
      have hfirst := mem_concurrentRead_take app (ownerships, ledger) access ty
      have hother := mem_concurrentRead_take app (ownerships, .start true) access ty
      have hsame := ownerships_take_congr app ownerships ledger (.start true) access
      rw [List.foldl_cons, List.foldl_cons]
      have hempty : ty ∉ (Ledger.start true).concurrentRead := SortedSet.not_mem_empty ty
      generalize take app (ownerships, ledger) access = first at hfirst hsame ⊢
      generalize take app (ownerships, .start true) access = second at hother hsame ⊢
      obtain ⟨later, written⟩ := first
      obtain ⟨_, plain⟩ := second
      obtain rfl : later = _ := hsame
      rw [ih later written, ih later plain, hfirst, hother, or_iff_right hempty, or_assoc]

/-- Whether a declared resource of a type is accessed in shared mode and ends up contended. -/
def ReadsContended (app : App) (accesses : List Access) (ownerships : Ownerships)
    (ty : String) : Prop :=
  ∃ name declared ceiling, app.resources.get? name = some declared ∧ declared.ty = ty ∧
    (∃ access ∈ accesses, access.resource = name ∧ access.mode = .shared) ∧
    ownerships.get? name = some (.contended ceiling)

theorem isContended_iff {current : Option Ownership} :
    current.any Ownership.isContended = true ↔ ∃ ceiling, current = some (.contended ceiling) := by
  cases current with
  | none => simp
  | some ownership => cases ownership <;> simp [Ownership.isContended]

theorem readsContended_congr {app : App} {accesses others : List Access}
    {ownerships reordered : Ownerships} (same : accesses.Perm others)
    (agree : ∀ name, ownerships.get? name = reordered.get? name) (ty : String) :
    ReadsContended app accesses ownerships ty ↔ ReadsContended app others reordered ty := by
  unfold ReadsContended
  simp only [agree, same.mem_iff]

theorem mem_concurrentRead_iff_readsContended (app : App) {accesses : List Access}
    (one_mode : ∀ access ∈ accesses, ∀ other ∈ accesses,
      access.resource = other.resource → access.mode = other.mode) (ledger : Ledger) (ty : String) :
    ty ∈ (accesses.foldl (take app) (∅, ledger)).2.concurrentRead ↔
      ty ∈ ledger.concurrentRead ∨
        ReadsContended app accesses (accesses.foldl (take app) (∅, ledger)).1 ty := by
  rw [mem_concurrentRead_foldl_take, readsOf_foldl_take one_mode ty]
  apply or_congr Iff.rfl
  unfold ReadsContended
  simp only [get?_foldl_take, isContended_iff]
  constructor
  · rintro ⟨name, hshared, ⟨ceiling, hceiling⟩, declared, hdeclared, rfl⟩
    exact ⟨name, declared, ceiling, hdeclared, rfl, hshared, hceiling⟩
  · rintro ⟨name, declared, ceiling, hdeclared, rfl, hshared, hceiling⟩
    exact ⟨name, hshared, ⟨ceiling, hceiling⟩, declared, hdeclared, rfl⟩

/-- The types to be read safely are added exactly: those of the declared resources that are
accessed in shared mode and end up contended, in whichever order the accesses come. -/
theorem mem_concurrentRead_ofAccesses_iff (app : App) {accesses : List Access}
    (one_mode : ∀ access ∈ accesses, ∀ other ∈ accesses,
      access.resource = other.resource → access.mode = other.mode) (ledger : Ledger) :
    ((∀ others, accesses.Perm others →
      ∃ ownerships written, ofAccesses app others ledger = .ok (ownerships, written)) ↔
      ∀ access ∈ accesses, ∀ priority, access.priority = some priority → 0 ≤ priority) ∧
    ∀ ownerships written, ofAccesses app accesses ledger = .ok (ownerships, written) →
      (∀ ty, ty ∈ written.concurrentRead ↔
        ty ∈ ledger.concurrentRead ∨ ReadsContended app accesses ownerships ty) ∧
      written.transfer = ledger.transfer ∧
      ∀ others, accesses.Perm others → ∀ reordered rewritten,
        ofAccesses app others ledger = .ok (reordered, rewritten) →
          rewritten.concurrentRead = written.concurrentRead ∧
            rewritten.transfer = written.transfer := by
  refine ⟨exists_ofAccesses_perm_iff, fun ownerships written hfold => ?_⟩
  have hstate := foldl_take_of_ofAccesses hfold
  have hlaid := mem_concurrentRead_iff_readsContended app one_mode ledger
  have htransfer := transfer_foldl_take app accesses (∅, ledger)
  rw [hstate] at hlaid htransfer
  refine ⟨hlaid, htransfer, fun others same reordered rewritten hothers => ?_⟩
  have hother := foldl_take_of_ofAccesses hothers
  have hmodes : ∀ access ∈ others, ∀ other ∈ others,
      access.resource = other.resource → access.mode = other.mode := by
    simpa only [same.mem_iff] using one_mode
  have hagain := mem_concurrentRead_iff_readsContended app hmodes ledger
  have hunmoved := transfer_foldl_take app others (∅, ledger)
  rw [hother] at hagain hunmoved
  have hagree := get?_foldl_take_of_perm same app app ledger ledger
  rw [hstate, hother] at hagree
  refine ⟨?_, hunmoved.trans htransfer.symm⟩
  ext ty
  rw [hagain, hlaid, readsContended_congr same hagree]

theorem mem_concurrentRead_logging :
    (∀ access ∈ logging, ∀ other ∈ logging,
      access.resource = other.resource → access.mode = other.mode) ∧
      ∃ ownerships written, ofAccesses logger logging (.start true) = .ok (ownerships, written) ∧
        "Log" ∈ written.concurrentRead ∧ "Led" ∉ written.concurrentRead ∧
        written.transfer = (Ledger.start true).transfer := by
  have hmodes : ∀ access ∈ logging, ∀ other ∈ logging,
      access.resource = other.resource → access.mode = other.mode := by
    decide
  obtain ⟨haccepted, hexact⟩ := mem_concurrentRead_ofAccesses_iff logger hmodes (.start true)
  obtain ⟨ownerships, written, hfold⟩ := haccepted.mpr (by decide) logging (.refl _)
  obtain ⟨hlaid, htransfer, -⟩ := hexact ownerships written hfold
  have hget (name : String) :
      ownerships.get? name = Ownership.after none (Access.prioritiesOf name logging) := by
    have hfolded := get?_foldl_take logger logging (∅, .start true) name
    rwa [foldl_take_of_ofAccesses hfold] at hfolded
  refine ⟨hmodes, ownerships, written, hfold, ?_, fun member => ?_, htransfer⟩
  · exact (hlaid "Log").mpr (.inr ⟨"log", ⟨"Log", some "0"⟩, 5, by decide, rfl, by decide,
      (hget "log").trans (by decide)⟩)
  · rcases (hlaid "Led").mp member with hold | ⟨name, declared, ceiling, hrow, hty, -, hcontended⟩
    · exact SortedSet.not_mem_empty _ hold
    · have hnames : ∀ row ∈ logger.resources.rows, row.2.ty = "Led" → row.1 = "led" := by decide
      obtain rfl : name = "led" := hnames _ (Table.get?_eq_some_iff.mp hrow) hty
      rw [hget, show Ownership.after none (Access.prioritiesOf "led" logging) = some (.owned 0) by
        decide] at hcontended
      cases hcontended

end Ownerships

end StackPolicy
