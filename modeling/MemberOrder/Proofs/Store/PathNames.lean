import MemberOrder.Store.Basic

/-!
# Names in paths

The pieces of a text are its parts between slashes (`Path.pieces_eq_splitOn`), so that a name behind
a slash is one more name of an address (`Store.names_append_slash`). A path has its own name behind
a front that is empty or ends in a slash (`Path.exists_front`). With another last name it has the
same front, and a longer name is a longer text (`Path.text_withName_append`).
-/

namespace MemberOrder

namespace Path

section Pieces

variable {text : List Char}

theorem pieces_eq_splitOn (text : List Char) : pieces text = text.splitOn '/' := by
  induction text with
  | nil => rfl
  | cons c rest ih =>
      obtain ⟨piece, more, given⟩ :=
        List.exists_cons_of_ne_nil (List.splitOnP_ne_nil (fun c => c == '/') rest)
      rw [List.splitOn, List.splitOnP_cons_eq_if_modifyHead, given]
      rw [List.splitOn, given] at ih
      unfold pieces at ih ⊢
      rw [List.foldr_cons, ih]
      by_cases slash : c = '/'
      · subst slash
        rfl
      · simp [slash]

theorem pieces_append_cons (front rest : List Char) :
    pieces (front ++ '/' :: rest) = pieces front ++ pieces rest := by
  simp only [pieces_eq_splitOn, List.splitOn]
  exact List.splitOnP_append_cons _ _ rfl

theorem pieces_of_not_mem (plain : '/' ∉ text) : pieces text = [text] := by
  rw [pieces_eq_splitOn, List.splitOn]
  refine List.splitOnP_eq_singleton fun c member => beq_false_of_ne ?_
  rintro rfl
  exact plain member

theorem not_mem_of_mem_pieces {piece : List Char} (member : piece ∈ pieces text) : '/' ∉ piece := by
  induction text generalizing piece with
  | nil =>
      obtain rfl := List.mem_singleton.mp member
      exact List.not_mem_nil
  | cons c rest ih =>
      rw [pieces_eq_splitOn, List.splitOn] at ih member
      rw [List.splitOnP_cons_eq_if_modifyHead] at member
      split at member
      · rcases List.mem_cons.mp member with rfl | later
        · exact List.not_mem_nil
        · exact ih later
      · next other =>
          obtain ⟨first, more, given⟩ :=
            List.exists_cons_of_ne_nil (List.splitOnP_ne_nil (fun c => c == '/') rest)
          rw [given] at ih member
          rcases List.mem_cons.mp member with rfl | later
          · have different : '/' ≠ c := fun same => other (beq_iff_eq.mpr same.symm)
            exact List.not_mem_cons_of_ne_of_not_mem different (ih List.mem_cons_self)
          · exact ih (List.mem_cons_of_mem _ later)

end Pieces

/-- What the path of an address is made of. -/
structure Proper (path : Path) : Prop where
  root : path.root = "" ∨ ∃ above, path.root = above ++ "/"
  parts : ∀ part ∈ path.parts, part ≠ "" ∧ part ≠ "." ∧ '/' ∉ part.toList

theorem proper_ofText (address : String) : (ofText address).Proper where
  root := by
    unfold ofText rootOf
    dsimp only
    split
    · exact .inr ⟨"", rfl⟩
    · exact .inr ⟨"/", rfl⟩
    · exact .inr ⟨"", rfl⟩
    · exact .inl rfl
  parts part member := by
    obtain ⟨listed, proper⟩ := List.mem_filter.mp member
    obtain ⟨piece, inside, rfl⟩ := List.mem_map.mp listed
    obtain ⟨some, other⟩ := of_decide_eq_true proper
    exact ⟨some, other, by rw [String.toList_ofList]; exact not_mem_of_mem_pieces inside⟩

variable {path : Path}

theorem parts_eq_of_named (named : path.name ≠ "") :
    path.parts = path.parts.dropLast ++ [path.name] := by
  unfold name at named ⊢
  cases last : path.parts.getLast? with
  | none => rw [last] at named; exact (named rfl).elim
  | some part =>
      obtain ⟨others, parts⟩ := List.getLast?_eq_some_iff.mp last
      simp [parts]

theorem Proper.name (proper : path.Proper) (named : path.name ≠ "") :
    path.name ≠ "." ∧ '/' ∉ path.name.toList := by
  have member : path.name ∈ path.parts := by
    rw [parts_eq_of_named named]
    exact List.mem_append_right _ List.mem_cons_self
  exact (proper.parts _ member).2

/-- A path is its name behind a front, and with another name it has the same front. -/
theorem Proper.exists_front (proper : path.Proper) (named : path.name ≠ "") :
    ∃ front : String, (front = "" ∨ ∃ above, front = above ++ "/") ∧
      path.text = front ++ path.name ∧ ∀ other, (path.withName other).text = front ++ other := by
  have whole : ∃ front : String, (front = "" ∨ ∃ above, front = above ++ "/") ∧
      ∀ last : String,
        (Path.mk path.root (path.parts.dropLast ++ [last])).text = front ++ last := by
    by_cases only : path.parts.dropLast = []
    · refine ⟨path.root, proper.root, fun last => ?_⟩
      simp [text, only]
    · refine ⟨path.root ++ String.intercalate "/" path.parts.dropLast ++ "/", .inr ⟨_, rfl⟩,
        fun last => ?_⟩
      simp [text, String.intercalate_append_of_ne_nil only, String.append_assoc]
  obtain ⟨front, ends, texts⟩ := whole
  refine ⟨front, ends, ?_, texts⟩
  rw [← texts, ← parts_eq_of_named named]

theorem Proper.text_ne_empty (proper : path.Proper) (named : path.name ≠ "") :
    path.text ≠ "" := by
  obtain ⟨front, -, own, -⟩ := proper.exists_front named
  intro none
  rw [own, String.append_eq_empty_iff] at none
  exact named none.2

/-- A longer name is a longer text. -/
theorem Proper.text_withName_append (proper : path.Proper) (named : path.name ≠ "")
    (ending : String) : (path.withName (path.name ++ ending)).text = path.text ++ ending := by
  obtain ⟨front, -, own, texts⟩ := proper.exists_front named
  rw [texts, own, String.append_assoc]

end Path

namespace Store

variable {address name : String}

theorem names_append_slash (address : String) (plain : '/' ∉ name.toList) :
    names (address ++ "/" ++ name) = names address ++ [name] := by
  have chars : (address ++ "/" ++ name).toList = address.toList ++ '/' :: name.toList := by simp
  rw [names, chars, Path.pieces_append_cons, Path.pieces_of_not_mem plain, List.map_append]
  simp [names]

/-- Where an address starts does not depend on its end. -/
theorem start_append (store : Store) (some : address ≠ "") (rest : String) :
    store.start (address ++ rest) = store.start address := by
  have first (c : Char) (rest : List Char) : Path.rootOf (c :: rest) = "" ↔ c ≠ '/' := by
    unfold Path.rootOf
    split <;> simp_all
  cases chars : address.toList with
  | nil => exact (some (by simpa using congrArg String.ofList chars)).elim
  | cons c tail =>
      have longer : (address ++ rest).toList = c :: (tail ++ rest.toList) := by simp [chars]
      simp only [start, chars, longer, first]

end Store

/-- The names of a path lead to its own, and with a longer name to that. -/
theorem Path.Proper.exists_names {path : Path} (proper : path.Proper) (named : path.name ≠ "") :
    ∃ above, Store.names path.text = above ++ [path.name] ∧
      ∀ ending : String, '/' ∉ ending.toList →
        Store.names (path.text ++ ending) = above ++ [path.name ++ ending] := by
  obtain ⟨front, ends, own, -⟩ := proper.exists_front named
  have whole : ∃ above, ∀ last : String, '/' ∉ last.toList →
      Store.names (front ++ last) = above ++ [last] := by
    rcases ends with rfl | ⟨above, rfl⟩
    · refine ⟨[], fun last plain => ?_⟩
      rw [String.empty_append, Store.names, pieces_of_not_mem plain]
      simp
    · exact ⟨Store.names above, fun last plain => Store.names_append_slash above plain⟩
  obtain ⟨above, names⟩ := whole
  have plain := (proper.name named).2
  refine ⟨above, by rw [own, names _ plain], fun ending unslashed => ?_⟩
  rw [own, String.append_assoc, names]
  rw [String.toList_append, List.mem_append, not_or]
  exact ⟨plain, unslashed⟩

end MemberOrder
