import MemberOrder.Proofs.Store.PathNames
import MemberOrder.Proofs.Store.Writing

/-!
# What a written file leaves alone

A file that is written changes what is at its own location and nothing else (`Store.agrees_write`),
and so does a copy (`Store.agrees_copy`). Once a file has been copied it can still be written
(`Store.exists_write_of_copy`), so that a backup is never all that is left of the work.
-/

namespace MemberOrder

namespace Store

variable {store later : Store} {location : Location} {address : String} {content : List UInt8}

/-- Whether a store is another one but for what is at the locations of some addresses. -/
structure AgreesOutside (addresses : List String) (store later : Store) : Prop where
  here : later.here = store.here
  elsewhere : ∀ location, (∀ address ∈ addresses, store.locate address ≠ .ok location) →
    later.find? location = store.find? location

theorem AgreesOutside.refl (addresses : List String) (store : Store) :
    AgreesOutside addresses store store := ⟨rfl, fun _ _ => rfl⟩

theorem AgreesOutside.mono {addresses more : List String}
    (agrees : AgreesOutside addresses store later) (listed : addresses ⊆ more) :
    AgreesOutside more store later where
  here := agrees.here
  elsewhere location apart := agrees.elsewhere location fun address member =>
    apart address (listed member)

theorem exists_of_write (written : store.write address content = .ok later) :
    ∃ location, store.locate address = .ok location ∧ store.refusal? location = none ∧
      later = store.put location (.file content) := by
  rw [write] at written
  split at written
  · cases written
  · next location found =>
      obtain ⟨located, free⟩ := locate_of_target found
      cases written
      exact ⟨location, located, free, rfl⟩

/-- What is written to an address changes what is at its location. -/
theorem agrees_write (written : store.write address content = .ok later) :
    AgreesOutside [address] store later := by
  obtain ⟨place, located, -, rfl⟩ := exists_of_write written
  refine ⟨rfl, fun location apart => find?_put_of_ne store ?_⟩
  rintro rfl
  exact apart address List.mem_cons_self located

/-- Where a file has been put, addresses lead where they led. -/
theorem locate_put {other : Location} {entry : Entry}
    (free : store.find? location ≠ some .directory) (found : store.locate address = .ok other) :
    (store.put location entry).locate address = .ok other := by
  unfold locate at found ⊢
  split at found
  · cases found
  · exact walk_put free _ _ found

section Slashes

/-- An address with a slash at its end is one of a directory. -/
theorem directory_of_walk {start : Location} {names : List String}
    (found : store.walk start (names ++ [""]) = .ok location) :
    store.find? location = some .directory := by
  induction names generalizing start with
  | nil =>
      rw [List.nil_append, walk] at found
      split at found
      · cases found
      · cases found
      · next entered =>
          simp only [true_or, ↓reduceIte, walk] at found
          cases found
          exact entered
  | cons name rest ih =>
      rw [List.cons_append, walk] at found
      split at found
      · cases found
      · cases found
      · split at found
        · exact ih found
        · split at found
          · cases found
          · split at found
            · exact ih found
            · exact ih found

/-- A file is at no address that ends in a slash. -/
theorem endsWith_of_read (read : store.read address = .ok content) :
    address.endsWith "/" = false := by
  rw [Bool.eq_false_iff]
  intro closed
  rw [String.endsWith_eq_endsWith_toSlice, String.Slice.endsWith_string_iff,
    String.copy_toSlice] at closed
  obtain ⟨chars, same⟩ := closed
  rw [Store.read] at read
  split at read
  · cases read
  · next location located =>
      unfold locate at located
      split at located
      · cases located
      · have ends : names address = (Path.pieces chars).map String.ofList ++ [""] := by
          rw [names, ← same]
          exact (congrArg _ (Path.pieces_append_cons chars [])).trans (List.map_append ..)
        rw [ends] at located
        rw [directory_of_walk located] at read
        cases read

end Slashes

theorem exists_of_read (read : store.read address = .ok content) :
    ∃ location, store.locate address = .ok location ∧
      store.find? location = some (.file content) := by
  rw [Store.read] at read
  split at read
  · cases read
  · next location located =>
      split at read
      · next found => cases read; exact ⟨location, located, found⟩
      · cases read
      · cases read

/-- A file is left alone by what is written at another location. -/
theorem read_of_write_elsewhere {other : String} {given : List UInt8}
    (read : store.read other = .ok content) (written : store.write address given = .ok later)
    (apart : ∀ location, store.locate address = .ok location →
      store.locate other ≠ .ok location) : later.read other = .ok content := by
  obtain ⟨location, located, found⟩ := exists_of_read read
  obtain ⟨place, led, free, rfl⟩ := exists_of_write written
  have again : (store.put place (.file given)).locate other = .ok location :=
    locate_put (find?_ne_directory free) located
  have different : location ≠ place := by
    rintro rfl
    exact apart _ led located
  simp only [Store.read, again, find?_put_of_ne store different, found]

/-- What can be read as a file can be written. -/
theorem exists_write_of_read (read : store.read address = .ok content) (given : List UInt8) :
    ∃ later, store.write address given = .ok later := by
  obtain ⟨location, located, found⟩ := exists_of_read read
  have proper : addressFault? address = none := by
    unfold locate at located
    split at located
    · cases located
    · assumption
  have free : store.refusal? location = none := by rw [refusal?, found]
  refine ⟨store.put location (.file given), ?_⟩
  simp only [write, target, proper, endsWith_of_read read, located, free, Bool.false_eq_true,
    ↓reduceIte, bind, Except.bind]

variable {path : Path}

theorem exists_of_copy (copied : store.copy path address = .ok later) :
    ∃ content, store.read path.text = .ok content ∧
      store.write (store.copyAddress path address) content = .ok later := by
  unfold copy at copied
  cases read : store.read path.text with
  | error fault => rw [read] at copied; cases copied
  | ok content => rw [read] at copied; exact ⟨content, rfl, copied⟩

/-- A copy of a file changes what is at the location of the copy. -/
theorem agrees_copy (copied : store.copy path address = .ok later) :
    AgreesOutside [store.copyAddress path address] store later := by
  obtain ⟨content, -, written⟩ := exists_of_copy copied
  exact agrees_write written

/-- A file that has been copied can be written. -/
theorem exists_write_of_copy (copied : store.copy path address = .ok later)
    (given : List UInt8) : ∃ last, later.write path.text given = .ok last := by
  obtain ⟨content, read, written⟩ := exists_of_copy copied
  obtain ⟨place, -, free, rfl⟩ := exists_of_write written
  obtain ⟨location, located, found⟩ := exists_of_read read
  have again : (store.put place (.file content)).locate path.text = .ok location :=
    locate_put (find?_ne_directory free) located
  by_cases same : location = place
  · have reads : (store.put place (.file content)).read path.text = .ok content := by
      simp only [Store.read, again, same, find?_put store (ne_nil_of_refusal? free)]
    exact exists_write_of_read reads given
  · have reads : (store.put place (.file content)).read path.text = .ok content := by
      simp only [Store.read, again, find?_put_of_ne store same, found]
    exact exists_write_of_read reads given

/-- A file that is copied and then written changes at its own location and that of the copy. -/
theorem agrees_write_of_copy {last : Store} (copied : store.copy path address = .ok later)
    (written : later.write path.text content = .ok last) :
    AgreesOutside [path.text, store.copyAddress path address] store last := by
  obtain ⟨kept, read, wrote⟩ := exists_of_copy copied
  obtain ⟨place, -, free, rfl⟩ := exists_of_write wrote
  obtain ⟨location, located, -⟩ := exists_of_read read
  have again : (store.put place (.file kept)).locate path.text = .ok location :=
    locate_put (find?_ne_directory free) located
  have first := agrees_copy copied
  have second := agrees_write written
  refine ⟨second.here.trans first.here, fun other apart => ?_⟩
  have later := second.elsewhere other fun address member led => by
    rw [List.mem_singleton.mp member, again] at led
    cases led
    exact apart _ List.mem_cons_self located
  refine later.trans (first.elsewhere other fun address member => ?_)
  exact apart address (List.mem_cons_of_mem _ member)

end Store

end MemberOrder
