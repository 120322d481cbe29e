import HardSector.Medium.CopyOnWrite
import HardSector.Medium.InPlace
import HardSector.Proofs.Storage.Growth
import HardSector.Proofs.Storage.Reading

/-!
# Media that leave files as they are

A copy-on-write medium never touches the file tree, and a medium in place writes to its file
what is in it already unless something is stored. So fetches and releases leave every file
as it is, and files stay open while others are made.
-/

namespace HardSector

open FileTree (Grown)

/-- A fetch changes no bytes of the stream, whatever becomes of its calls. -/
theorem InPlace.contents_fetchStream (s : Stream) (offset count : Nat) :
    (fetchStream s offset count).stream.contents = s.contents := by
  unfold fetchStream
  have hseek := s.contents_seek offset
  split
  · next heq =>
    rw [heq] at hseek
    exact hseek
  · next heq =>
    rw [heq] at hseek
    exact Stream.contents_readLoop.trans hseek

/-! ## Media -/

/-- Media on a file tree that change no file unless something is stored. -/
class Conserving (M R : Type) [Medium M R FileTree] where
  /-- What a medium needs of the tree. -/
  Opened : M → FileTree → Prop
  /-- It is there while blank images are made. -/
  grown : ∀ {medium : M} {paths : List String} {before after : FileTree},
    Grown paths before after → Opened medium before → Opened medium after
  /-- A fetch leaves the tree as it is. -/
  fetch : ∀ {medium : M} {site : Site R FileTree} (offset count : Nat),
    Opened medium site.host →
    let fetched := Medium.fetch medium site offset count
    Grown [] site.host fetched.site.host ∧ Opened fetched.medium fetched.site.host
  /-- A release leaves the tree as it is. -/
  release : ∀ {medium : M} {site : Site R FileTree}, Opened medium site.host →
    Grown [] site.host (Medium.release medium site).2.host

/-- A copy-on-write medium needs nothing of the tree and does nothing to it. -/
instance : Conserving CopyOnWrite PatchPool where
  Opened _ _ := True
  grown _ _ := trivial
  fetch _ _ _ := ⟨.refl _ _, trivial⟩
  release _ := .refl _ _

/-- The stream of an open file has the bytes of the file. -/
theorem InPlace.contents_stream {disk : InPlace FileHandle} {tree : FileTree} {bytes : Bytes}
    (hfile : tree.get? disk.handle.location = some (.file bytes)) :
    (disk.stream tree).contents = bytes := by
  change (tree.file? disk.handle.location).getD #[] = bytes
  unfold FileTree.file?
  rw [hfile]
  rfl

/-- An open file is put back with its bytes unchanged. -/
theorem InPlace.grown_restore {disk : InPlace FileHandle} {tree : FileTree} {s : Stream}
    (hopened : ∃ bytes, tree.get? disk.handle.location = some (.file bytes))
    (hcontents : s.contents = (disk.stream tree).contents) :
    Grown [] tree (disk.restore tree s).2 := by
  obtain ⟨bytes, hfile⟩ := hopened
  change Grown [] tree (tree.write disk.handle.location s.contents)
  rw [hcontents, contents_stream hfile]
  exact FileTree.grown_write hfile

/-- A medium in place needs its file. -/
instance : Conserving (InPlace FileHandle) Unit where
  Opened disk tree := ∃ bytes, tree.get? disk.handle.location = some (.file bytes)
  grown hgrown hopened := by
    obtain ⟨bytes, hfile⟩ := hopened
    exact ⟨bytes, hgrown.kept hfile⟩
  fetch {disk site} offset count hopened := by
    have hgrown := InPlace.grown_restore hopened (InPlace.contents_fetchStream _ offset count)
    obtain ⟨bytes, hfile⟩ := hopened
    exact ⟨hgrown, bytes, hgrown.kept hfile⟩
  release {disk site} hopened := by
    have hgrown := InPlace.grown_restore hopened (Stream.contents_flush _)
    simp only [Medium.release]
    rcases hflush : (disk.stream site.host).flush with ⟨_ | _, s⟩
    · rw [hflush] at hgrown
      exact hgrown
    · rw [hflush] at hgrown
      exact hgrown

/-! ## Files that are opened -/

/-- A regular file that is found is there. -/
theorem FileTree.get?_of_findFile {tree : FileTree} {path : String} {location : Location}
    {bytes : Bytes} (hfind : tree.findFile path = .ok (location, bytes)) :
    tree.get? location = some (.file bytes) := by
  unfold findFile find at hfind
  cases hlocate : tree.locate path with
  | error cause =>
    simp only [hlocate, reduceCtorEq] at hfind
  | ok here =>
    simp only [hlocate] at hfind
    cases hhere : tree.get? here with
    | none => simp only [hhere, reduceCtorEq] at hfind
    | some entry =>
      cases entry with
      | directory => simp only [hhere, reduceCtorEq] at hfind
      | file found =>
        simp only [hhere] at hfind
        split_ifs at hfind
        cases hfind
        exact hhere

/-- An image that is opened in place is a file of the tree. -/
theorem InPlace.opened_ofFile {tree : FileTree} {path : String} {disk : InPlace FileHandle}
    {notices : List Notice} (hopen : InPlace.ofFile tree path = (.ok disk, notices)) :
    Conserving.Opened Unit disk tree := by
  unfold ofFile at hopen
  split at hopen
  · cases hopen
  · next location bytes hfind =>
    cases hopen
    exact ⟨bytes, FileTree.get?_of_findFile hfind⟩

end HardSector
