import Chip8.FileTree
import Chip8.Proofs.Config.Normal

/-!
# A log file beside the files that are read

A path that leads to a file leads through directories, so where it ends is told by its names alone
(`FileTree.target`). A tree that differs from another one in a file at one place
(`FileTree.Spares`) therefore has the same bytes for every path that ends elsewhere
(`FileTree.Spares.read`).

To create a file is to make such a difference, since none is created over a directory
(`FileTree.spares_create`), and to add bytes to it makes no other (`FileTree.Spares.append`).
-/

namespace Chip8

namespace FileTree

/-- The place that a path names. -/
def target (t : FileTree) (path : String) : Location :=
  place (t.start path).reverse (names path)

/-- A tree has what another one has, but for a file at a place. -/
structure Spares (place : Location) (t u : FileTree) : Prop where
  home : u.home = t.home
  others : ∀ p, p ≠ place → u.entry? p = t.entry? p
  /-- No directory has been replaced. -/
  file : t.entry? place ≠ some .directory

/-! ## Putting an entry at a place -/

theorem lookup_map_entry (entries : List (Location × FileEntry)) (place p : Location)
    (e : FileEntry) :
    (entries.map fun (q, old) => (q, if q = place then e else old)).lookup p =
      (entries.lookup p).map fun old => if p = place then e else old := by
  induction entries with
  | nil => rfl
  | cons entry entries ih =>
    obtain ⟨q, old⟩ := entry
    rw [List.map_cons, List.lookup_cons, List.lookup_cons]
    cases hq : p == q with
    | true =>
      obtain rfl := eq_of_beq hq
      rfl
    | false => exact ih

theorem lookup_put (t : FileTree) (place p : Location) (e : FileEntry) :
    (t.put place e).entries.lookup p = if p = place then some e else t.entries.lookup p := by
  unfold put
  split
  · next hplace =>
    obtain ⟨old, hold⟩ := Option.isSome_iff_exists.mp hplace
    rw [lookup_map_entry]
    by_cases hp : p = place
    · rw [if_pos hp, hp, hold]
      simp
    · simp [hp]
  · next hplace =>
    have hnone : t.entries.lookup place = none := Option.not_isSome_iff_eq_none.mp hplace
    rw [List.lookup_append, List.lookup_cons, List.lookup_nil]
    by_cases hp : p = place
    · rw [if_pos hp, hp, hnone, beq_self_eq_true]
      rfl
    · rw [if_neg hp, beq_eq_false_iff_ne.mpr hp]
      exact Option.or_none

theorem home_put (t : FileTree) (place : Location) (e : FileEntry) :
    (t.put place e).home = t.home := by
  unfold put
  split <;> rfl

theorem entry?_put (t : FileTree) {place : Location} (hplace : t.entry? place ≠ some .directory)
    (p : Location) (e : FileEntry) :
    FileTree.entry? (t.put place e) p = if p = place then some e else t.entry? p := by
  have hhome : ¬ place.isPrefixOf t.home = true := fun h => hplace (if_pos h)
  unfold entry?
  rw [home_put, lookup_put]
  by_cases hp : p = place
  · rw [if_pos hp, if_pos hp, hp, if_neg hhome]
  · rw [if_neg hp, if_neg hp]

theorem spares_put (t : FileTree) {place : Location} (hplace : t.entry? place ≠ some .directory)
    (e : FileEntry) : Spares place t (t.put place e) where
  home := t.home_put place e
  others p hp := by rw [entry?_put t hplace, if_neg hp]
  file := hplace

theorem entry?_of_lookup {t : FileTree} {p : Location} {e : FileEntry} (h : t.lookup p = .ok e) :
    t.entry? p = some e := by
  unfold lookup at h
  split at h
  · contradiction
  · cases hentry : t.entry? p with
    | none =>
      rw [hentry] at h
      contradiction
    | some found =>
      rw [hentry] at h
      rw [Except.ok.inj h]

/-- A file that is created is empty, and nothing else has changed. -/
theorem spares_create {t u : FileTree} {path : String} {place : Location}
    (h : t.create path = .ok (place, u)) :
    place = t.target path ∧ Spares place t u ∧ u.entry? place = some (.file []) := by
  simp only [create, bind, Except.bind] at h
  split at h
  · contradiction
  · split at h
    · contradiction
    · split at h
      · contradiction
      · contradiction
      · next hdirectory hlong =>
        obtain ⟨rfl, rfl⟩ := Prod.mk.inj (Except.ok.inj h)
        have hplace : t.entry? (t.target path) ≠ some .directory := by
          intro hentry
          rw [← target, lookup] at hdirectory hlong
          split at hdirectory
          · next hname => exact hlong (if_pos hname)
          · exact hdirectory (by rw [hentry])
        exact ⟨rfl, spares_put t hplace _, by rw [← target, entry?_put t hplace, if_pos rfl]⟩

namespace Spares

variable {place : Location} {t u : FileTree} (h : Spares place t u)

include h

/-- Bytes that are added to the file make no other difference. -/
theorem append (hu : u.entry? place ≠ some .directory) (bytes : List UInt8) :
    Spares place t (u.append place bytes) := by
  unfold FileTree.append
  split
  · next old _ =>
    have hput := spares_put u hu (.file (old ++ bytes))
    exact ⟨hput.home.trans h.home, fun p hp => (hput.others p hp).trans (h.others p hp), h.file⟩
  · exact h

/-! ## Reading what lies elsewhere -/

theorem lookup {p : Location} (hp : p ≠ place) : u.lookup p = t.lookup p := by
  rw [FileTree.lookup, FileTree.lookup, h.others p hp]

/-- Names that lead somewhere in the one tree lead to the same in the other, unless they end at the
place of the file. -/
theorem follow {base : Location} {here e : FileEntry} {names : List String}
    (hfollow : t.follow base here names = .ok e) (hend : FileTree.place base names ≠ place) :
    u.follow base here names = .ok e := by
  induction names generalizing base here with
  | nil => exact hfollow
  | cons name rest ih =>
    cases here with
    | file bytes => contradiction
    | directory =>
      rw [FileTree.follow] at hfollow ⊢
      rw [FileTree.place] at hend
      by_cases hup : name = ".."
      · rw [if_pos hup] at hfollow hend ⊢
        exact ih hfollow hend
      · rw [if_neg hup] at hfollow hend ⊢
        cases hnext : t.lookup (name :: base).reverse with
        | error err =>
          rw [hnext] at hfollow
          contradiction
        | ok next =>
          rw [hnext] at hfollow
          by_cases hp : (name :: base).reverse = place
          · -- no directory is there, so the names would have to end, and they do not
            have hentry := entry?_of_lookup hnext
            rw [hp] at hentry
            cases next with
            | directory => exact absurd hentry h.file
            | file bytes =>
              cases rest with
              | nil => exact absurd hp hend
              | cons name' rest => contradiction
          · rw [h.lookup hp, hnext]
            exact ih hfollow hend

theorem find {path : String} {e : FileEntry} (hfind : t.find path = .ok e)
    (hend : t.target path ≠ place) : u.find path = .ok e := by
  have hstart : u.start path = t.start path := by rw [start, start, h.home]
  rw [FileTree.find] at hfind ⊢
  obtain ⟨_, hlength, hfollow⟩ := bind_eq_ok_iff.mp hfind
  rw [hlength, hstart]
  exact h.follow hfollow hend

/-- A file that is read is read in the other tree, unless it is the one that was put there. -/
theorem read {path : String} {bytes : List UInt8} (hread : t.read path = .ok bytes)
    (hend : t.target path ≠ place) : u.read path = .ok bytes := by
  rw [FileTree.read] at hread ⊢
  obtain ⟨e, hfind, hbytes⟩ := bind_eq_ok_iff.mp hread
  rw [h.find hfind hend]
  exact hbytes

theorem readExact {path : String} {bytes : List UInt8} (hread : t.readExact path = .ok bytes)
    (hend : t.target path ≠ place) : u.readExact path = .ok bytes := by
  unfold FileTree.readExact at hread ⊢
  cases hfound : t.read path with
  | error e =>
    rw [hfound] at hread
    contradiction
  | ok found =>
    rw [hfound] at hread
    rw [h.read hfound hend]
    exact hread

end Spares

end FileTree

end Chip8
