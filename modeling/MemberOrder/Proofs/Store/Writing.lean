import MemberOrder.Store.Basic

/-!
# Files that were written

A file takes no part in the way that an address leads to a location, so putting one somewhere
changes no such way (`Store.walk_put`). An address is read as what was last written there
(`Store.read_of_write`).
-/

namespace MemberOrder

namespace Store

variable {store later : Store} {location other : Location} {entry : Entry}

theorem ne_nil_of_refusal? (free : store.refusal? location = none) : location ≠ [] := by
  rintro rfl
  cases free

theorem find?_ne_directory (free : store.refusal? location = none) :
    store.find? location ≠ some .directory := by
  intro found
  rw [refusal?, found] at free
  cases free

theorem lookup_filter_ne (entries : List (Location × Entry)) (different : other ≠ location) :
    (entries.filter fun (kept, _) => kept ≠ location).lookup other = entries.lookup other := by
  induction entries with
  | nil => rfl
  | cons first rest ih =>
      obtain ⟨kept, entry⟩ := first
      by_cases same : kept = location
      · have passed : (other == kept) = false := beq_false_of_ne (same ▸ different)
        simp only [List.filter_cons, same, ne_eq, not_true_eq_false, decide_false,
          Bool.false_eq_true, ↓reduceIte, List.lookup_cons]
        rw [← same, passed]
        simpa only [same] using ih
      · simp only [List.filter_cons, ne_eq, same, not_false_eq_true, decide_true, ↓reduceIte,
          List.lookup_cons]
        cases other == kept
        · simpa only [ne_eq] using ih
        · rfl

theorem find?_put (store : Store) (proper : location ≠ []) :
    (store.put location entry).find? location = some entry := by
  rw [find?, if_neg proper, put, List.lookup_cons_self]

theorem find?_put_of_ne (store : Store) (different : other ≠ location) :
    (store.put location entry).find? other = store.find? other := by
  unfold find? put
  by_cases top : other = []
  · rw [if_pos top, if_pos top]
  · have passed : (other == location) = false := beq_false_of_ne different
    rw [if_neg top, if_neg top, List.lookup_cons, passed]
    exact lookup_filter_ne _ different

/-- The ways through a store do not change when something is put where no directory is. -/
theorem walk_put (free : store.find? location ≠ some .directory) (place : Location)
    (names : List String) (found : store.walk place names = .ok other) :
    (store.put location entry).walk place names = .ok other := by
  induction names generalizing place with
  | nil => exact found
  | cons name rest ih =>
      cases entered : store.find? place with
      | none => simp [walk, entered] at found
      | some given =>
          cases given with
          | file content => simp [walk, entered] at found
          | directory =>
              -- What is gone on from is a directory, so it is not where the entry was put.
              have apart : place ≠ location := by
                rintro rfl
                exact free entered
              rw [walk] at found ⊢
              rw [find?_put_of_ne store apart]
              simp only [entered] at found ⊢
              by_cases skipped : name = "" ∨ name = "."
              · rw [if_pos skipped] at found ⊢
                exact ih place found
              by_cases long : nameLimit < name.utf8ByteSize
              · rw [if_neg skipped, if_pos long] at found
                cases found
              rw [if_neg skipped, if_neg long] at found ⊢
              by_cases named : name ≠ ".."
              · rw [if_pos named] at found ⊢
                exact ih _ found
              · rw [if_neg named] at found ⊢
                exact ih _ found

/-- A file is written where its address leads, and never in the place of a directory. -/
theorem locate_of_target {address : String} (found : store.target address = .ok location) :
    store.locate address = .ok location ∧ store.refusal? location = none := by
  unfold target at found
  cases proper : addressFault? address with
  | some cause =>
      rw [proper] at found
      cases found
  | none =>
      rw [proper] at found
      by_cases closed : address.endsWith "/"
      · simp only [closed, ↓reduceIte] at found
        cases above : store.walk (store.start address)
            (((names address).reverse.dropWhile (· = "")).tail.reverse ++ ["."]) <;>
          rw [above] at found <;> cases found
      · simp only [closed, Bool.false_eq_true, ↓reduceIte] at found
        cases located : store.locate address with
        | error cause =>
            rw [located] at found
            cases found
        | ok place =>
            rw [located] at found
            cases free : store.refusal? place with
            | some cause => simp [bind, Except.bind, free] at found
            | none =>
                simp only [bind, Except.bind, free] at found
                cases found
                exact ⟨rfl, free⟩

/-- A file holds what was last written to its address. -/
theorem read_of_write {address : String} {content : List UInt8}
    (written : store.write address content = .ok later) : later.read address = .ok content := by
  rw [write] at written
  split at written
  · cases written
  · next location found =>
      obtain ⟨located, free⟩ := locate_of_target found
      cases written
      have again : (store.put location (.file content)).locate address = .ok location := by
        unfold locate at located ⊢
        split at located
        · cases located
        · exact walk_put (find?_ne_directory free) _ _ located
      simp only [read, again, find?_put store (ne_nil_of_refusal? free)]

end Store

end MemberOrder
