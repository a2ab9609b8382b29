import MemberOrder.Proofs.Outcome
import MemberOrder.Store.Basic

/-!
# Addresses with a null character

What holds a null character is no address, whatever a store holds. The other way round a fault is
about a null character only where the address has one.
-/

namespace MemberOrder

/-- Whether a fault is about a null character only where the address has one. -/
def StoreFault.Sound (fault : StoreFault) : Prop :=
  fault.cause = .nullCharacter → '\x00' ∈ fault.address.toList

namespace Store

variable (store : Store) (address : String)

theorem walk_ne_nullCharacter (location : Location) (names : List String) :
    store.walk location names ≠ .error .nullCharacter := by
  induction names generalizing location with
  | nil => rintro ⟨⟩
  | cons name rest ih =>
      unfold walk
      split
      · rintro ⟨⟩
      · rintro ⟨⟩
      · split
        · exact ih _
        · split
          · rintro ⟨⟩
          · split
            · exact ih _
            · exact ih _

theorem addressFault?_eq_nullCharacter (found : addressFault? address = some .nullCharacter) :
    '\x00' ∈ address.toList := by
  unfold addressFault? at found
  split at found
  · assumption
  · split at found
    · cases found
    · split at found <;> cases found

theorem locate_eq_nullCharacter (fails : store.locate address = .error .nullCharacter) :
    '\x00' ∈ address.toList := by
  unfold locate at fails
  split at fails
  · next cause found =>
      cases fails
      exact addressFault?_eq_nullCharacter address found
  · exact absurd fails (store.walk_ne_nullCharacter _ _)

theorem target_eq_nullCharacter (fails : store.target address = .error .nullCharacter) :
    '\x00' ∈ address.toList := by
  unfold target at fails
  cases proper : addressFault? address with
  | some cause =>
      rw [proper] at fails
      cases fails
      exact addressFault?_eq_nullCharacter address proper
  | none =>
      rw [proper] at fails
      by_cases closed : address.endsWith "/"
      · simp only [closed, ↓reduceIte] at fails
        cases above : store.walk (store.start address)
            (((names address).reverse.dropWhile (· = "")).tail.reverse ++ ["."]) with
        | ok _ =>
            rw [above] at fails
            cases fails
        | error cause =>
            rw [above] at fails
            cases fails
            exact absurd above (store.walk_ne_nullCharacter _ _)
      · simp only [closed, Bool.false_eq_true, ↓reduceIte] at fails
        cases located : store.locate address with
        | error cause =>
            rw [located] at fails
            cases fails
            exact store.locate_eq_nullCharacter address located
        | ok place =>
            rw [located] at fails
            unfold refusal? at fails
            cases found : store.find? place with
            | none => simp [bind, Except.bind, found] at fails
            | some entry => cases entry <;> simp [bind, Except.bind, found] at fails

theorem settles_read : Settles (fun _ => True) StoreFault.Sound (store.read address) := by
  unfold read
  split
  · next cause located =>
      exact .error fun null => store.locate_eq_nullCharacter address (null ▸ located)
  · split
    · exact .ok trivial
    · exact .error nofun
    · exact .error nofun

theorem settles_write (content : List UInt8) :
    Settles (fun _ => True) StoreFault.Sound (store.write address content) := by
  unfold write
  split
  · next cause refused =>
      exact .error fun null => store.target_eq_nullCharacter address (null ▸ refused)
  · exact .ok trivial

theorem settles_copy (source : Path) :
    Settles (fun _ => True) StoreFault.Sound (store.copy source address) :=
  (store.settles_read source.text).bind fun content _ => store.settles_write _ content

end Store

end MemberOrder
