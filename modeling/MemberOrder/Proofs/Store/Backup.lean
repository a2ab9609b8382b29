import MemberOrder.Proofs.Store.Frame

/-!
# Where a backup is

The backup of a file is beside it under a longer name, or in a directory of that name under its own
name. Neither is the place of the file itself (`Store.locate_backup_ne`), so the file can be written
and its backup still holds what it held before (`Store.read_backup_of_write`).
-/

namespace MemberOrder

namespace Store

variable {store copied later : Store} {place location : Location}

theorem walk_append (place : Location) (names others : List String) :
    store.walk place (names ++ others) =
      store.walk place names >>= fun place => store.walk place others := by
  induction names generalizing place with
  | nil => rfl
  | cons name rest ih =>
      rw [List.cons_append, walk, walk]
      split
      · rfl
      · rfl
      · split
        · exact ih _
        · split
          · rfl
          · split
            · exact ih _
            · exact ih _

theorem walk_append_eq_ok_iff {names others : List String} :
    store.walk place (names ++ others) = .ok location ↔
      ∃ middle, store.walk place names = .ok middle ∧ store.walk middle others = .ok location := by
  rw [walk_append]
  cases store.walk place names <;> simp [bind, Except.bind]

theorem walk_of_locate {address : String} (located : store.locate address = .ok location) :
    store.walk (store.start address) (names address) = .ok location := by
  unfold locate at located
  split at located
  · cases located
  · exact located

/-- One more name leads down from a directory, or up if it is two dots. -/
theorem of_walk_append_single {start : Location} {names : List String} {name : String}
    (reached : store.walk start names = .ok place)
    (found : store.walk start (names ++ [name]) = .ok location)
    (some : name ≠ "") (other : name ≠ ".") : store.find? place = Option.some .directory ∧
      location = if name = ".." then place.dropLast else place ++ [name] := by
  rw [walk_append, reached] at found
  change store.walk place [name] = .ok location at found
  rw [walk] at found
  split at found
  · cases found
  · cases found
  · next entered =>
      rw [if_neg (not_or.mpr ⟨some, other⟩)] at found
      split at found
      · cases found
      · split at found
        · next down => cases found; exact ⟨entered, (if_neg down).symm⟩
        · next up => cases found; exact ⟨entered, (if_pos (Decidable.not_not.mp up)).symm⟩

variable {path : Path}

/-- An address leads through a directory to its own name, or up from there if that is two dots. -/
theorem exists_directory_of_locate (proper : path.Proper) (named : path.name ≠ "")
    (located : store.locate path.text = .ok location) :
    ∃ above directory, store.walk (store.start path.text) above = .ok directory ∧
      store.find? directory = some .directory ∧
      (location = if path.name = ".." then directory.dropLast else directory ++ [path.name]) ∧
      ∀ ending : String, '/' ∉ ending.toList →
        names (path.text ++ ending) = above ++ [path.name ++ ending] := by
  obtain ⟨above, own, longer⟩ := proper.exists_names named
  have walked := walk_of_locate located
  rw [own] at walked
  obtain ⟨directory, reached, -⟩ := walk_append_eq_ok_iff.mp walked
  obtain ⟨entered, found⟩ :=
    of_walk_append_single reached walked named (proper.name named).1
  exact ⟨above, directory, reached, entered, found, longer⟩

/-- A backup is beside its file, or one step down from there. If the name of the file is two dots,
that step leads back up. -/
theorem backup_cases {directory : Location} {above : List String} (proper : path.Proper)
    (named : path.name ≠ "") (reached : store.walk (store.start path.text) above = .ok directory)
    (longer : names (path.text ++ ".bak") = above ++ [path.name ++ ".bak"])
    (led : store.locate (store.copyAddress path (path.text ++ ".bak")) = .ok place) :
    place = directory ++ [path.name ++ ".bak"] ∨
      (path.name = ".." ∧ place = directory) ∨
        place = directory ++ [path.name ++ ".bak", path.name] := by
  have text := proper.text_ne_empty named
  obtain ⟨undotted, plain⟩ := proper.name named
  have long {name : String} (short : name.length < 4) : path.name ++ ".bak" ≠ name := by
    rintro rfl
    rw [String.length_append] at short
    exact absurd short (Nat.not_lt.mpr (Nat.le_add_left ..))
  have beside {other : Location}
      (walked : store.walk (store.start path.text) (above ++ [path.name ++ ".bak"]) = .ok other) :
      other = directory ++ [path.name ++ ".bak"] := by
    have leads := (of_walk_append_single reached walked (long (by decide)) (long (by decide))).2
    rwa [if_neg (long (by decide))] at leads
  have walked := walk_of_locate led
  unfold copyAddress at walked
  split at walked
  · rw [names_append_slash _ plain, longer, String.append_assoc, String.append_assoc,
      start_append _ text] at walked
    obtain ⟨inside, reachedInside, -⟩ := walk_append_eq_ok_iff.mp walked
    obtain rfl := beside reachedInside
    obtain ⟨-, found⟩ := of_walk_append_single reachedInside walked named undotted
    split at found
    · next up => exact .inr (.inl ⟨up, found.trans (List.dropLast_concat ..)⟩)
    · exact .inr (.inr (by simpa using found))
  · rw [longer, start_append _ text] at walked
    exact .inl (beside walked)

/-- The backup of a file is put at another place than the file. -/
theorem locate_backup_ne (proper : path.Proper) (named : path.name ≠ "")
    (located : store.locate path.text = .ok location)
    (led : store.locate (store.copyAddress path (path.text ++ ".bak")) = .ok place)
    (free : store.refusal? place = none) : place ≠ location := by
  obtain ⟨above, directory, reached, entered, found, longer⟩ :=
    exists_directory_of_locate proper named located
  have shorter : location.length ≤ directory.length + 1 := by
    rw [found]
    split
    · rw [List.length_dropLast]
      omega
    · simp
  rcases backup_cases proper named reached (longer ".bak" (by decide)) led with
    beside | ⟨-, up⟩ | inside
  · rintro rfl
    rw [beside] at found
    split at found
    · have lengths := congrArg List.length found
      rw [List.length_append, List.length_dropLast, List.length_singleton] at lengths
      omega
    · have names := congrArg List.getLast? found
      simp at names
  · exact absurd (up ▸ entered) (find?_ne_directory free)
  · rintro rfl
    rw [inside, List.length_append] at shorter
    exact absurd shorter (by simp)

/-- Once its backup is there a file can be written, and its backup holds what it held before. -/
theorem read_backup_of_write {content given : List UInt8} (proper : path.Proper)
    (named : path.name ≠ "") (read : store.read path.text = .ok content)
    (copies : store.copy path (path.text ++ ".bak") = .ok copied)
    (written : copied.write path.text given = .ok later) :
    later.read (store.copyAddress path (path.text ++ ".bak")) = .ok content := by
  obtain ⟨kept, readAgain, wrote⟩ := exists_of_copy copies
  obtain rfl : content = kept := Except.ok.inj (read.symm.trans readAgain)
  refine read_of_write_elsewhere (read_of_write wrote) written fun location led same => ?_
  obtain ⟨place, located, free, rfl⟩ := exists_of_write wrote
  obtain ⟨own, locatedOwn, -⟩ := exists_of_read read
  have unmoved {address : String} {other : Location} (found : store.locate address = .ok other) :
      (store.put place (.file content)).locate address = .ok other :=
    locate_put (find?_ne_directory free) found
  have samePlace : place = location := Except.ok.inj ((unmoved located).symm.trans same)
  have sameOwn : own = location := Except.ok.inj ((unmoved locatedOwn).symm.trans led)
  exact locate_backup_ne proper named locatedOwn located free (samePlace.trans sameOwn.symm)

end Store

end MemberOrder
