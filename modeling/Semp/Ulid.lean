import Semp.MigrationOrchestrate
import Semp.Positional

/-! The ids that the minters make of the clock and ten random bytes: 26 letters of base 32, in two
words of 13 for the two halves of the 16 bytes. -/
namespace Semp
open Positional

namespace PoW

/-- The minter of challenge ids has the body of that of record ids. -/
def newULID (nowMs : ℕ) (random : Bytes) : JsString := Migration.newRecordID nowMs random

end PoW

namespace Migration

def letter (d : ℕ) : UInt16 := (ulidAlphabet[d]?).getD 0

/-- The letters rise. -/
theorem letter_lt : ∀ y < 32, ∀ x < y, letter x < letter y := by decide

theorem ulidDigits_eq (n u : ℕ) : ulidDigits n u = (digits 32 n u).map letter := by
  induction n generalizing u with
  | zero => rfl
  | succ n ih =>
    have hlt : u%32 < ulidAlphabet.length := Nat.mod_lt _ (by decide)
    rw [ulidDigits,ih,digits,List.map_append,List.map_singleton,letter,
      List.getElem?_eq_getElem hlt]
    rfl

theorem letter_inj {x y : ℕ} (hx : x < 32) (hy : y < 32) (h : letter x = letter y) : x = y := by
  rcases Nat.lt_trichotomy x y with hlt | heq | hgt
  · exact absurd (h ▸ letter_lt y hy x hlt) (UInt16.lt_irrefl _)
  · exact heq
  · exact absurd (h ▸ letter_lt x hx y hgt) (UInt16.lt_irrefl _)

section Words
variable {n u v : ℕ}

theorem ulidDigits_lt (huv : u < v) (hv : v < 32^n) : ulidDigits n u < ulidDigits n v := by
  rw [ulidDigits_eq,ulidDigits_eq]
  exact map_lt_map (fun x _ y hy hlt => letter_lt y (lt_of_mem_digits (by decide) hy) x hlt)
    (digits_lt huv hv)

theorem ulidDigits_inj (hu : u < 32^n) (hv : v < 32^n) (h : ulidDigits n u = ulidDigits n v) :
    u = v := by
  rcases Nat.lt_trichotomy u v with hlt | heq | hgt
  · exact absurd (h ▸ ulidDigits_lt hlt hv) (List.lt_irrefl _)
  · exact heq
  · exact absurd (h ▸ ulidDigits_lt hgt hu) (List.lt_irrefl _)

end Words

/-- The bytes of an id: six of the time, ten that were drawn. -/
theorem newRecordID_eq {nowMs : ℕ} {random : Bytes} (hr : random.length = 10) :
    newRecordID nowMs random =
      ulidDigits 13 (nowMs%256^6*256^2+value 256 ((random.take 2).map UInt8.toNat))++
        ulidDigits 13 (value 256 ((random.drop 2).map UInt8.toNat)) := by
  have htime : ((List.range 6).map fun i => nowMs/256^(5-i)%256) = digits 256 6 nowMs := by
    simp only [digits_succ]
    rfl
  have hrandom : ((List.range 10).map fun i => ((random[i]?).map UInt8.toNat).getD 0) =
      random.map UInt8.toNat := by
    refine List.ext_getElem (by simp [hr]) fun i h₁ h₂ => ?_
    have hi : i < random.length := by simpa using h₂
    simp [List.getElem?_eq_getElem hi]
  have hfirst : (digits 256 6 nowMs++random.map UInt8.toNat).take 8 =
      digits 256 6 nowMs++(random.take 2).map UInt8.toNat := by
    rw [List.take_append,length_digits,List.take_of_length_le (by simp),List.map_take]
  have hlast : (digits 256 6 nowMs++random.map UInt8.toNat).drop 8 =
      (random.drop 2).map UInt8.toNat := by
    rw [List.drop_append,length_digits,List.drop_of_length_le (by simp),List.nil_append,
      List.map_drop]
  have htwo : ((random.take 2).map UInt8.toNat).length = 2 := by simp [hr]
  have hvalue := value_append 256 (digits 256 6 nowMs) ((random.take 2).map UInt8.toNat)
  rw [htwo,value_digits] at hvalue
  rw [newRecordID]
  dsimp only
  rw [htime,hrandom,hfirst,hlast,← hvalue]
  rfl

section Minted
variable {nowMs later : ℕ} {random other : Bytes}

theorem bytes_lt (bs : Bytes) : ∀ d ∈ bs.map UInt8.toNat, d < 256 := by
  intro d hd
  obtain ⟨b,-,rfl⟩ := List.mem_map.mp hd
  exact b.toNat_lt

theorem value_bytes_lt {bs : Bytes} {n : ℕ} (hn : bs.length = n) :
    value 256 (bs.map UInt8.toNat) < 256^n := by
  have h := value_lt (bytes_lt bs)
  rwa [List.length_map,hn] at h

/-- Bytes of one count are told apart by the number they write. -/
theorem bytes_inj {bs cs : Bytes} (hlen : bs.length = cs.length)
    (h : value 256 (bs.map UInt8.toNat) = value 256 (cs.map UInt8.toNat)) : bs = cs := by
  have hmap := value_inj (bytes_lt bs) (bytes_lt cs) (by simpa using hlen) h
  exact (List.map_injective_iff.mpr fun _ _ => UInt8.toNat_inj.mp) hmap

theorem length_newRecordID (nowMs : ℕ) (random : Bytes) :
    (newRecordID nowMs random).length = 26 := by
  rw [newRecordID,List.length_append,ulidDigits_eq,ulidDigits_eq,List.length_map,List.length_map,
    length_digits,length_digits]

/-- An id tells the time and the bytes it was made of. -/
theorem newRecordID_inj (hn : nowMs < 2^48) (hl : later < 2^48) (hr : random.length = 10)
    (ho : other.length = 10) (h : newRecordID nowMs random = newRecordID later other) :
    nowMs = later ∧ random = other := by
  have h₁ : value 256 ((random.take 2).map UInt8.toNat) < 256^2 := value_bytes_lt (by simp [hr])
  have h₂ : value 256 ((other.take 2).map UInt8.toNat) < 256^2 := value_bytes_lt (by simp [ho])
  have h₃ : value 256 ((random.drop 2).map UInt8.toNat) < 256^8 := value_bytes_lt (by simp [hr])
  have h₄ : value 256 ((other.drop 2).map UInt8.toNat) < 256^8 := value_bytes_lt (by simp [ho])
  rw [newRecordID_eq hr,newRecordID_eq ho] at h
  obtain ⟨hfirst,hlast⟩ := List.append_inj h (by
    rw [ulidDigits_eq,ulidDigits_eq,List.length_map,List.length_map,length_digits,length_digits])
  rw [Nat.mod_eq_of_lt (by norm_num; omega),Nat.mod_eq_of_lt (by norm_num; omega)] at hfirst
  have hword := ulidDigits_inj (by omega) (by omega) hfirst
  have hrest := ulidDigits_inj (by omega) (by omega) hlast
  have htwo : value 256 ((random.take 2).map UInt8.toNat) =
      value 256 ((other.take 2).map UInt8.toNat) := by omega
  refine ⟨by omega,?_⟩
  rw [← List.take_append_drop 2 random,← List.take_append_drop 2 other,
    bytes_inj (by simp [hr,ho]) htwo,bytes_inj (by simp [hr,ho]) hrest]

/-- An id of a later millisecond is the greater text, whatever was drawn. -/
theorem newRecordID_lt (hlt : nowMs < later) (hl : later < 2^48) (hr : random.length = 10)
    (ho : other.length = 10) : newRecordID nowMs random < newRecordID later other := by
  have h₁ : value 256 ((random.take 2).map UInt8.toNat) < 256^2 := value_bytes_lt (by simp [hr])
  have h₂ : value 256 ((other.take 2).map UInt8.toNat) < 256^2 := value_bytes_lt (by simp [ho])
  rw [newRecordID_eq hr,newRecordID_eq ho,Nat.mod_eq_of_lt (by norm_num; omega),
    Nat.mod_eq_of_lt (by norm_num; omega)]
  refine append_lt_append ?_ (ulidDigits_lt (by omega) (by omega)) _ _
  rw [ulidDigits_eq,ulidDigits_eq,List.length_map,List.length_map,length_digits,length_digits]

/-- Both minters give 26 letters, tell times and bytes apart, and order by the time. -/
theorem ulids_ordered (hn : nowMs < 2^48) (hl : later < 2^48) (hr : random.length = 10)
    (ho : other.length = 10) :
    ∀ mint ∈ [newRecordID,PoW.newULID], (mint nowMs random).length = 26 ∧
      (mint nowMs random = mint later other → nowMs = later ∧ random = other) ∧
      (nowMs < later → mint nowMs random < mint later other) := by
  intro mint hmint
  have heq : mint = newRecordID := by
    rw [List.mem_cons,List.mem_singleton] at hmint
    obtain rfl | rfl := hmint
    · rfl
    · rfl
  rw [heq]
  exact ⟨length_newRecordID ..,newRecordID_inj hn hl hr ho,fun hlt => newRecordID_lt hlt hl hr ho⟩

theorem ulids_ordered_sample : (PoW.newULID 1 (List.replicate 10 255)).length = 26 ∧
    (PoW.newULID 1 (List.replicate 10 255) = PoW.newULID 2 (List.replicate 10 0) →
      1 = 2 ∧ List.replicate 10 (255 : UInt8) = List.replicate 10 0) ∧
    PoW.newULID 1 (List.replicate 10 255) < PoW.newULID 2 (List.replicate 10 0) := by
  have h := ulids_ordered (by decide : 1 < 2^48) (by decide : 2 < 2^48)
    (rfl : (List.replicate 10 (255 : UInt8)).length = 10)
    (rfl : (List.replicate 10 (0 : UInt8)).length = 10) PoW.newULID (by simp)
  exact ⟨h.1,h.2.1,h.2.2 (by decide)⟩

end Minted
end Migration
end Semp
