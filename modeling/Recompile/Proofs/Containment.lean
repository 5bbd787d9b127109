import Recompile.Proofs.EnclosedNames
import Recompile.Proofs.OutputDirectory
import Recompile.Proofs.Packaging

/-!
# Unpacking stays below its directory

An archive is unpacked into a directory that is new: it is empty, or it is not there yet. Whatever the names of the members
are, nothing is made or written but the directory and what is below it, and that holds at every moment, so also when
unpacking stops halfway (`Jar.extractAll_contained`). The names that are refused are skipped, and of the members that
resolve to the same place the last one is what is found there in the end.

The argument has an invariant, `Files.Contained`, and two changes that keep it. What a member writes, and what is made for
it on the way, is at places to which the first names of a path lead that starts with the names of the directory. If these
are names of the directory only, then there is nothing to make, or the directory itself. Otherwise the rest of them leads
on from the directory, below which there are no links, and never goes up beyond it.
-/

namespace Recompile

namespace Files

/-- **A directory to unpack into:** a path leads to an empty directory, or to where nothing is yet. -/
structure FreshDir (f : Files) (cwd : Location) (dest : Path) (base : Location) : Prop where
  leads : ∃ node, f.place cwd true dest = .ok ⟨base, node⟩ ∧ (node = none ∨ node = some .dir)
  empty : ∀ w, w ≠ [] → f.node? (base ++ w) = none

/-- **A tree in which something was unpacked.** It is as before outside of the directory, and in the directory there are
directories and files that were written. -/
structure Contained (before after : Files) (here : Location) (names : List String) (base : Location) : Prop where
  outside : ∀ loc, ¬ base <+: loc → after.node? loc = before.node? loc
  plain : ∀ w node, w ≠ [] → after.node? (base ++ w) = some node → node = .dir ∨ ∃ data, node = .file data false
  leads : ∃ node, after.LeadsTo here names ⟨base, node⟩ ∧ (node = none ∨ node = some .dir)

theorem FreshDir.contained {f : Files} {cwd base : Location} {dest : Path} (h : FreshDir f cwd dest base) :
    Contained f f (start cwd dest) (segments dest.spelling.toList) base where
  outside _ _ := rfl
  plain w node hw hnode := by simp [h.empty w hw] at hnode
  leads := by
    obtain ⟨node, hplace, hnode⟩ := h.leads
    refine ⟨node, leadsTo_of_place hplace fun target hlink => ?_, hnode⟩
    rcases hnode with rfl | rfl <;> simp at hlink

namespace Contained

variable {before f g : Files} {here base loc cwd : Location} {names more front : List String} {node : Option Node}

theorem links (h : Contained before f here names base) (w : Location) (target : Path) (hw : w ≠ []) :
    f.node? (base ++ w) ≠ some (.link target) := by
  intro hlink
  rcases h.plain w _ hw hlink with hdir | ⟨data, hfile⟩
  · cases hdir
  · cases hfile

/-- **Where the first names of a path below the directory lead,** if not to a directory: they are the names of the directory
and it is not there yet, or they lead on from it to a place below. -/
theorem of_leadsTo (h : Contained before f here names base) (hmore : StaysBelow 0 more) (hfront : front <+: names ++ more)
    (hleads : f.LeadsTo here front ⟨loc, node⟩) (hnode : node ≠ some .dir) :
    (front = names ∧ loc = base ∧ node = none) ∨ ∃ extra, front = names ++ extra ∧ extra <+: more ∧
      f.LeadsTo here names ⟨base, some .dir⟩ ∧ loc = base ++ spelled [] extra ∧ spelled [] extra ≠ [] := by
  obtain ⟨found, hdest, hfound⟩ := h.leads
  have hsame : front = names → (front = names ∧ loc = base ∧ node = none) := by
    rintro rfl
    obtain ⟨rfl, rfl⟩ := Place.mk.inj (hleads.unique hdest)
    exact ⟨rfl, rfl, hfound.resolve_right hnode⟩
  -- the path is followed up to the directory at most, or beyond it
  rcases List.prefix_or_prefix_of_prefix hfront (List.prefix_append names more) with ⟨back, hback⟩ | ⟨extra, rfl⟩
  · by_cases hnone : back = []
    · exact Or.inl (hsame (by rw [← hback, hnone, List.append_nil]))
    · -- on the way to the directory there are directories only
      rw [← hback] at hdest
      obtain ⟨loc', hfirst, -⟩ := hdest.split hnone
      exact absurd (Place.mk.inj (hleads.unique hfirst)).2 hnode
  · by_cases hnone : extra = []
    · exact Or.inl (hsame (by rw [hnone, List.append_nil]))
    · obtain ⟨loc', hfirst, hrest⟩ := hleads.split hnone
      obtain ⟨rfl, rfl⟩ := Place.mk.inj (hfirst.unique hdest)
      have hextra : extra <+: more := (List.prefix_append_right_inj names).1 hfront
      obtain ⟨hloc, hend⟩ := hrest.below h.links (hmore.of_front hextra)
      exact Or.inr ⟨extra, rfl, hextra, hdest, hloc, hend.resolve_left hnode⟩

/-- A directory or a file that is put below the directory. -/
theorem put_below (h : Contained before f here names base) (hdest : f.LeadsTo here names ⟨base, some .dir⟩) {w : Location}
    (hw : w ≠ []) {new : Node} (hnew : new = .dir ∨ ∃ data, new = .file data false)
    (hold : ∀ found, f.node? (base ++ w) = some found → found.isFile = true) :
    Contained before (f.put (base ++ w) new) here names base := by
  have hsome : base ++ w ≠ [] := by simp [hw]
  refine ⟨fun loc hloc => ?_, fun v found hv hfound => ?_, some .dir, ?_, Or.inr rfl⟩
  · rw [node?_put f hsome, if_neg, h.outside loc hloc]
    rintro rfl
    exact hloc (List.prefix_append base w)
  · rw [node?_put f hsome] at hfound
    split at hfound
    next => exact Option.some.inj hfound ▸ hnew
    next => exact h.plain v found hv hfound
  · exact hdest.dir_of_waysKept (waysKeptIn_put hsome hold new)

/-- **A directory that is made** on the way to a path below the directory. -/
theorem keptByMaking (before : Files) (here base : Location) (names : List String) (hmore : StaysBelow 0 more) :
    KeptByMaking (fun f => Contained before f here names base) here (names ++ more) := by
  intro f loc front h hfront hleads
  obtain ⟨hloc, hfree⟩ := hleads.node_eq.resolve_left (by simp)
  dsimp only at hloc hfree
  rcases h.of_leadsTo hmore hfront hleads (by simp) with ⟨rfl, rfl, -⟩ | ⟨extra, -, -, hdest, rfl, hbelow⟩
  · -- the directory itself
    refine ⟨fun other hother => ?_, fun w node hw hnode => ?_, some .dir, hleads.put (by simp) (by simp), Or.inr rfl⟩
    · rw [node?_put f hloc, if_neg, h.outside other hother]
      rintro rfl
      exact hother (List.prefix_refl _)
    · rw [node?_put f hloc, if_neg (by simpa using hw)] at hnode
      exact h.plain w node hw hnode
  · refine h.put_below hdest hbelow (Or.inl rfl) fun found hfound => ?_
    rw [← hfree] at hfound
    cases hfound

variable {dest : Path} {name : String}

/-- **The directories that are made for a member:** those of a path below the directory, or of its parent. -/
theorem makeDirAll (h : Contained before f (start cwd dest) (segments dest.spelling.toList) base) (hdest : dest.spelling ≠ "")
    (hname : ¬ Zip.Member.Refused name) {p : Path} (hp : p = dest / ⟨name⟩ ∨ (dest / ⟨name⟩ : Path).parent? = some p) :
    Contained before (f.makeDirAll cwd p).2 (start cwd dest) (segments dest.spelling.toList) base := by
  have hrelative := Zip.Member.isAbsolute_of_not_refused hname
  have hstart : start cwd p = start cwd dest := by
    rw [start_join hdest hrelative]
    rcases hp with rfl | hparent
    · rfl
    · exact start_parent? hparent cwd
  -- both paths spell out a part of the way to the member
  have hfront : segments p.spelling.toList <+: segments dest.spelling.toList ++ segments name.toList := by
    rw [← segments_join hdest hrelative]
    rcases hp with rfl | hparent
    · exact List.prefix_refl _
    · exact segments_parent? hparent ▸ List.prefix_append _ _
  have hkept : KeptByMaking (fun f => Contained before f (start cwd dest) (segments dest.spelling.toList) base)
      (start cwd p) (segments p.spelling.toList) := by
    rw [hstart]
    exact (keptByMaking before _ base _ (staysBelow_segments hname)).of_front hfront
  exact makeDirAll_induct hkept h

/-- **Where a path below the directory leads,** if not to a directory: where the name says by its spelling, and the directory
is there. -/
theorem of_place (h : Contained before f (start cwd dest) (segments dest.spelling.toList) base) (hdest : dest.spelling ≠ "")
    (hname : ¬ Zip.Member.Refused name) (hplace : f.place cwd true (dest / ⟨name⟩) = .ok ⟨loc, node⟩)
    (hnode : node = none ∨ ∃ data executable, node = some (.file data executable)) :
    f.LeadsTo (start cwd dest) (segments dest.spelling.toList) ⟨base, some .dir⟩ ∧
      loc = base ++ Zip.Member.way name ∧ Zip.Member.way name ≠ [] := by
  have hrelative := Zip.Member.isAbsolute_of_not_refused hname
  have hdir : node ≠ some .dir := by rcases hnode with rfl | ⟨_, _, rfl⟩ <;> simp
  have hwhole := leadsTo_of_place hplace fun target hlink => by rcases hnode with rfl | ⟨_, _, rfl⟩ <;> simp at hlink
  rw [segments_join hdest hrelative, ← start_join hdest hrelative] at hwhole
  rcases h.of_leadsTo (staysBelow_segments hname) (List.prefix_refl _) hwhole hdir with
    ⟨hnone, -, -⟩ | ⟨extra, hextra, -, hbase, rfl, hbelow⟩
  · -- the name has no names in it, so that its steps ask for a directory
    obtain ⟨dir, hleads⟩ := exists_leadsTo_of_place_join hdest hrelative hplace
    rw [hnone] at hwhole
    exact absurd (Place.mk.inj (hwhole.unique hleads)).2 hdir
  · obtain rfl := List.append_cancel_left hextra
    rw [spelled_segments hname] at hbelow ⊢
    exact ⟨hbase, rfl, hbelow⟩

/-- **A file that is written for a member** is where its name leads by its spelling. -/
theorem write (h : Contained before f (start cwd dest) (segments dest.spelling.toList) base) (hdest : dest.spelling ≠ "")
    (hname : ¬ Zip.Member.Refused name) {data : Bytes} (hwrite : f.write cwd (dest / ⟨name⟩) data = .ok g) :
    Contained before g (start cwd dest) (segments dest.spelling.toList) base ∧
      g.place cwd true (dest / ⟨name⟩) = .ok ⟨base ++ Zip.Member.way name, some (.file data false)⟩ ∧
      f.WaysKeptIn g ∧ ∀ loc, loc ≠ base ++ Zip.Member.way name → g.node? loc = f.node? loc := by
  obtain ⟨⟨loc, node⟩, executable, hplace, hnode, rfl⟩ := of_write hwrite
  dsimp only at hnode ⊢
  have hfile : node = none ∨ ∃ data executable, node = some (.file data executable) :=
    hnode.imp And.left fun ⟨old, hold⟩ => ⟨old, executable, hold⟩
  obtain ⟨hbase, rfl, hbelow⟩ := h.of_place hdest hname hplace hfile
  obtain ⟨hloc, hthere⟩ := (place_end hplace).resolve_left (by rcases hfile with rfl | ⟨_, _, rfl⟩ <;> simp)
  dsimp only at hloc hthere
  have hold : ∀ found, node = some found → found.isFile = true := by
    rintro found rfl
    obtain ⟨_, _, hsome⟩ := hfile.resolve_left (by simp)
    exact Option.some.inj hsome ▸ rfl
  have hthere' : ∀ found, f.node? (base ++ Zip.Member.way name) = some found → found.isFile = true :=
    fun found hfound => hold found (hthere.trans hfound)
  -- a file that is there was written, so that it is not executable
  obtain rfl : executable = false := by
    rcases hnode with ⟨-, hfalse⟩ | ⟨old, rfl⟩
    · exact hfalse
    · obtain ⟨data, hwritten⟩ := (h.plain _ _ hbelow hthere.symm).resolve_left (by simp)
      exact (Node.file.inj hwritten).2
  refine ⟨h.put_below hbase hbelow (Or.inr ⟨data, rfl⟩) hthere', place_put hold (by simp) hplace,
    waysKeptIn_put hloc hthere' _, fun other hother => ?_⟩
  rw [node?_put f hloc, if_neg hother]

end Contained

end Files

namespace Zip.Member

/-- **Whether a file is written for a member:** its name is not refused, and it is no directory. -/
def GivesFile (m : Member) : Prop := ¬ Refused m.name ∧ m.isDir = false

instance (m : Member) : Decidable m.GivesFile := inferInstanceAs (Decidable (_ ∧ _))

end Zip.Member

namespace Jar

open Zip.Member

/-- **The machine while something is unpacked:** its tree has changed below the directory, and nothing else. -/
structure Unpacking (start : Host) (dest : Path) (base : Location) (h : Host) : Prop where
  others : h = { start with files := h.files }
  contained : Files.Contained start.files h.files (Files.start start.cwd dest) (Files.segments dest.spelling.toList) base

/-- **A member of which the file is there:** its path leads to the file, which has all of its contents. -/
def Written (dest : Path) (base : Location) (m : Zip.Member) (h : Host) : Prop :=
  ∃ contents, m.contents? = some contents ∧ contents.fault = none ∧
    h.files.place h.cwd true (dest / ⟨m.name⟩) = .ok ⟨base ++ way m.name, some (.file contents.data false)⟩

variable {start h h' : Host} {archive dest : Path} {base : Location} {m : Zip.Member} {ms : List Zip.Member} {n : Nat}

theorem Unpacking.cwd_eq (hI : Unpacking start dest base h) : h.cwd = start.cwd := by rw [hI.others]

theorem Unpacking.makeDirAll (hdest : dest.spelling ≠ "") (name : String) (relative p : Path) (h : Host)
    (hname : enclosed? name = some relative) (hp : p = dest / relative ∨ (dest / relative : Path).parent? = some p)
    (hI : Unpacking start dest base h) :
    Unpacking start dest base { h with files := (h.files.makeDirAll h.cwd p).2 } where
  others := by rw [hI.others]
  contained := by
    obtain ⟨hnot, rfl⟩ := enclosed?_eq_some_iff.1 hname
    rw [hI.cwd_eq]
    exact hI.contained.makeDirAll hdest hnot hp

theorem Unpacking.write (hdest : dest.spelling ≠ "") (name : String) (relative : Path) (h : Host) (files : Files) (data : Bytes)
    (hname : enclosed? name = some relative) (hI : Unpacking start dest base h)
    (hwrite : h.files.write h.cwd (dest / relative) data = .ok files) : Unpacking start dest base { h with files } where
  others := by rw [hI.others]
  contained := by
    obtain ⟨hnot, rfl⟩ := enclosed?_eq_some_iff.1 hname
    rw [hI.cwd_eq] at hwrite
    exact (hI.contained.write hdest hnot hwrite).1

theorem keeps_unpacking_member (hdest : dest.spelling ≠ "") (archive : Path) (m : Zip.Member) :
    (extractMember archive dest m).Keeps (Unpacking start dest base) fun _ => True :=
  keeps_extractMember (Unpacking.makeDirAll hdest) (Unpacking.write hdest) archive m

/-- **Unpacking keeps to its directory,** whatever comes of it. -/
theorem keeps_unpacking (hdest : dest.spelling ≠ "") (archive : Path) (ms : List Zip.Member) :
    (extractAll archive dest ms).Keeps (Unpacking start dest base) fun _ => True :=
  keeps_extractAll (Unpacking.makeDirAll hdest) (Unpacking.write hdest) archive ms

theorem Written.of_kept (h₁ : Written dest base m h) (hcwd : h'.cwd = h.cwd) (hways : h.files.WaysKeptIn h'.files)
    (hnode : ∀ node, h.files.node? (base ++ way m.name) = some node → h'.files.node? (base ++ way m.name) = some node) :
    Written dest base m h' := by
  obtain ⟨contents, hcontents, hfault, hplace⟩ := h₁
  obtain ⟨-, hthere⟩ := (Files.place_end hplace).resolve_left (by simp)
  refine ⟨contents, hcontents, hfault, ?_⟩
  rw [hcwd]
  exact Files.place_of_waysKept hways hplace fun _ => hnode _ hthere.symm

/-- **One member that is unpacked.** The file of a member is there when it was written, and what was there before stays,
except a file at the same place. -/
theorem of_yields_extractMember (hdest : dest.spelling ≠ "") (hI : Unpacking start dest base h)
    (hrun : (extractMember archive dest m).Yields h n h') :
    n = (if m.GivesFile then 1 else 0) ∧ (m.GivesFile → Written dest base m h') ∧ h'.cwd = h.cwd ∧
      h.files.WaysKeptIn h'.files ∧ ∀ loc node, (m.GivesFile → loc ≠ base ++ way m.name) →
        h.files.node? loc = some node → h'.files.node? loc = some node := by
  -- a member without a file leaves all there is
  have hkept : ∀ {k : Host}, h.files.KeptIn k.files → k.cwd = h.cwd → ¬ m.GivesFile →
      0 = (if m.GivesFile then 1 else 0) ∧ (m.GivesFile → Written dest base m k) ∧ k.cwd = h.cwd ∧
        h.files.WaysKeptIn k.files ∧ ∀ loc node, (m.GivesFile → loc ≠ base ++ way m.name) →
          h.files.node? loc = some node → k.files.node? loc = some node := by
    intro k hfiles hcwd hno
    exact ⟨(if_neg hno).symm, fun h => absurd h hno, hcwd, hfiles.ways, fun loc node _ => hfiles loc node⟩
  unfold extractMember at hrun
  cases hcontents : m.contents? with
  | none =>
    rw [hcontents] at hrun
    exact absurd hrun Action.not_yields_throw
  | some contents =>
    rw [hcontents] at hrun
    dsimp only at hrun
    cases hname : enclosed? m.name with
    | none =>
      rw [hname] at hrun
      obtain ⟨rfl, rfl⟩ := Action.yields_pure.1 hrun
      exact hkept (Files.KeptIn.refl _) rfl fun hfile => hfile.1 (enclosed?_eq_none_iff.1 hname)
    | some relative =>
      rw [hname] at hrun
      obtain ⟨hnot, rfl⟩ := enclosed?_eq_some_iff.1 hname
      dsimp only at hrun
      split at hrun
      next hisDir =>
        obtain ⟨_, k, hmade, hpure⟩ := Action.yields_bind.1 hrun
        obtain ⟨-, rfl⟩ := Host.yields_makeDirAll.1 hmade
        obtain ⟨rfl, rfl⟩ := Action.yields_pure.1 hpure
        exact hkept (Files.makeDirAll_addsDirs _ _ _).kept rfl fun hfile => by simp [hfile.2] at hisDir
      next hisFile =>
        have hgives : m.GivesFile := ⟨hnot, by simpa using hisFile⟩
        obtain ⟨_, k, hwritten, hpure⟩ := Action.yields_bind.1 hrun
        obtain ⟨rfl, rfl⟩ := Action.yields_pure.1 hpure
        obtain ⟨hfault, f, files, hf, hwrite, rfl⟩ := of_yields_writeMember hwritten
        -- first the directory of the file is made
        have hmade : h.files.KeptIn f ∧ Unpacking start dest base { h with files := f } := by
          rcases hf with rfl | ⟨up, hup, rfl⟩
          · exact ⟨Files.KeptIn.refl _, hI⟩
          · exact ⟨(Files.makeDirAll_addsDirs _ _ _).kept, hI.makeDirAll hdest _ _ _ _ hname (Or.inr hup)⟩
        obtain ⟨hkeeps, hI'⟩ := hmade
        have hcwd : h.cwd = start.cwd := hI.cwd_eq
        rw [hcwd] at hwrite
        obtain ⟨-, hplace, hways, hother⟩ := hI'.contained.write hdest hnot hwrite
        refine ⟨(if_pos hgives).symm, fun _ => ⟨contents, hcontents, hfault, hcwd ▸ hplace⟩, rfl,
          fun loc node hnode hkind => hways loc node (hkeeps loc node hnode) hkind, fun loc node hloc hnode => ?_⟩
        rw [hother loc (hloc hgives)]
        exact hkeeps loc node hnode

/-- **Members that are unpacked one after the other.** They are counted if they give files. The last one for a place is found
there in the end, and what was written before is found unless one of them is for the same place. -/
theorem of_yields_extractAll (hdest : dest.spelling ≠ "") (hI : Unpacking start dest base h)
    (hrun : (extractAll archive dest ms).Yields h n h') :
    n = ms.countP (fun m => m.GivesFile) ∧
      (∀ m, Written dest base m h → (∀ m' ∈ ms, m'.GivesFile → way m'.name ≠ way m.name) → Written dest base m h') ∧
      ∀ before m after, ms = before ++ m :: after → m.GivesFile →
        (∀ m' ∈ after, m'.GivesFile → way m'.name ≠ way m.name) → Written dest base m h' := by
  induction ms generalizing h n with
  | nil =>
    obtain ⟨rfl, rfl⟩ := Action.yields_pure.1 hrun
    exact ⟨rfl, fun m hm _ => hm, fun before m after hsplit => by simp at hsplit⟩
  | cons first rest ih =>
    obtain ⟨one, k, hfirst, hmore⟩ := Action.yields_bind.1 hrun
    obtain ⟨others, k', hrest, hpure⟩ := Action.yields_bind.1 hmore
    obtain ⟨rfl, rfl⟩ := Action.yields_pure.1 hpure
    -- the first member keeps the invariant, so the rest unpacks as the members before it did
    have hk : Unpacking start dest base k := (keeps_unpacking_member hdest archive first).state hI hfirst
    obtain ⟨hone, hwritten, hcwd, hways, hkept⟩ := of_yields_extractMember hdest hI hfirst
    obtain ⟨hothers, hstays, hlast⟩ := ih hk hrest
    refine ⟨?_, fun m hm hapart => ?_, fun before m after hsplit hgives hapart => ?_⟩
    · rw [List.countP_cons, ← hothers, Nat.add_comm]
      simpa using hone
    · -- what stood there before the first member outlives it, unless it writes there itself
      refine hstays m (hm.of_kept hcwd hways fun node => hkept _ node fun hfile hsame => ?_)
        fun m' hm' => hapart m' (List.mem_cons_of_mem _ hm')
      exact hapart first List.mem_cons_self hfile (List.append_cancel_left hsame).symm
    · cases before with
      | nil =>
        obtain ⟨rfl, rfl⟩ := List.cons.inj hsplit
        exact hstays first (hwritten hgives) hapart
      | cons _ before => exact hlast before m after (List.cons.inj hsplit).2 hgives hapart

/-- A member with a refused name is skipped if it can be read at all. -/
theorem extractMember_of_refused (archive dest : Path) (hname : Refused m.name) (hcontents : m.contents?.isSome = true) :
    extractMember archive dest m = pure 0 := by
  obtain ⟨contents, hsome⟩ := Option.isSome_iff_exists.1 hcontents
  unfold extractMember
  rw [hsome, enclosed?_eq_none_iff.2 hname]

/-- **Members with refused names can be left out.** -/
theorem extractAll_filter (archive dest : Path) (hreadable : ∀ m ∈ ms, Refused m.name → m.contents?.isSome = true) :
    extractAll archive dest ms = extractAll archive dest (ms.filter fun m => ¬ Refused m.name) := by
  induction ms with
  | nil => rfl
  | cons m rest ih =>
    have hrest := ih fun m' hm' => hreadable m' (List.mem_cons_of_mem m hm')
    by_cases hname : Refused m.name
    · rw [List.filter_cons_of_neg (by simpa using hname), ← hrest, extractAll,
        extractMember_of_refused archive dest hname (hreadable m List.mem_cons_self hname)]
      simp only [pure_bind, Nat.zero_add, bind_pure]
    · rw [List.filter_cons_of_pos (by simpa using hname), extractAll, extractAll, hrest]

/-- What is unpacked is what is read from the archive. -/
theorem run_unzip (archive dest : Path) (hopen : Zip.openAt h archive = .ok ms) :
    ((unzip archive dest).run.run h).run = ((extractAll archive dest ms).run.run h).run :=
  Action.run_bind_of_yields (yields_members_of_openAt hopen)

/-- **Unpacking stays below its directory.** The names that are refused are those with a zero byte, the absolute ones and
those of which a front goes up more often than down. Whatever the members are and however unpacking ends, the machine is
as before but for its tree, and the tree is as before outside of the directory. Members with refused names make no
difference where they can be read. If unpacking succeeds, its result is the number of the other members that are no
directories, and the last of them for each place has all of its contents there. -/
theorem extractAll_contained {h : Host} {dest : Path} {base : Location} (hfresh : Files.FreshDir h.files h.cwd dest base)
    (archive : Path) (ms : List Zip.Member) :
    (∀ name, enclosed? name = none ↔ Refused name) ∧
      (Zip.openAt h archive = .ok ms →
        ((unzip archive dest).run.run h).run = ((extractAll archive dest ms).run.run h).run) ∧
      (∀ r h', ((extractAll archive dest ms).run.run h).run = (r, h') →
        (∃ files, h' = { h with files }) ∧ ∀ loc, ¬ base <+: loc → h'.files.node? loc = h.files.node? loc) ∧
      ((∀ m ∈ ms, Refused m.name → m.contents?.isSome = true) →
        extractAll archive dest ms = extractAll archive dest (ms.filter fun m => ¬ Refused m.name)) ∧
      ∀ n h', (extractAll archive dest ms).Yields h n h' →
        n = ms.countP (fun m => m.GivesFile) ∧
          ∀ before m after, ms = before ++ m :: after → m.GivesFile →
            (∀ m' ∈ after, m'.GivesFile → way m'.name ≠ way m.name) →
            ∃ contents, m.contents? = some contents ∧ contents.fault = none ∧
              h'.files.node? (base ++ way m.name) = some (.file contents.data false) ∧
              h'.read (dest / ⟨m.name⟩) = .ok contents.data := by
  have hdest : dest.spelling ≠ "" := by
    obtain ⟨node, hplace, -⟩ := hfresh.leads
    exact (Files.place_eq_ok_iff.1 hplace).1.some
  have hstart : Unpacking h dest base h := ⟨rfl, hfresh.contained⟩
  refine ⟨fun _ => enclosed?_eq_none_iff, run_unzip archive dest, fun r h' hrun => ?_, extractAll_filter archive dest,
    fun n h' hrun => ?_⟩
  · have hI := (keeps_unpacking hdest archive ms).state hstart hrun
    exact ⟨⟨_, hI.others⟩, hI.contained.outside⟩
  · obtain ⟨hcount, -, hlast⟩ := of_yields_extractAll hdest hstart hrun
    refine ⟨hcount, fun before m after hsplit hgives hapart => ?_⟩
    obtain ⟨contents, hcontents, hfault, hplace⟩ := hlast before m after hsplit hgives hapart
    obtain ⟨-, hnode⟩ := (Files.place_end hplace).resolve_left (by simp)
    exact ⟨contents, hcontents, hfault, hnode.symm, Files.read_eq_ok_iff.2 ⟨_, false, hplace⟩⟩

/-! ### Four members -/

private def memberOf (name : String) (data : Bytes) : Zip.Member :=
  ⟨name, .stored, false, Crc32.ofBytes data, some data, 0, 0⟩

private def besideDest : Host where
  files := Files.put ∅ ["d"] .dir

private theorem freshDir_besideDest : Files.FreshDir besideDest.files besideDest.cwd "d/x" ["d", "x"] where
  leads := ⟨none, rfl, Or.inl rfl⟩
  empty w hw := by
    have hput := Files.node?_put ∅ (show ["d"] ≠ [] by simp) .dir (["d", "x"] ++ w)
    rw [if_neg (by simp)] at hput
    exact hput

/-- A name that goes up and down again is unpacked, one that leads out is not, and of two members for one place the last
one counts. -/
theorem extractAll_contained_of_four :
    ∃ h', (extractAll "j.jar" "d/x" [memberOf "a/../b" [1], memberOf "../x" [2], memberOf "c/" [], memberOf "./b" [3]]).Yields
        besideDest 2 h' ∧
      h'.files.node? ["d", "x", "b"] = some (.file [3] false) ∧
      ∀ loc, ¬ ["d", "x"] <+: loc → h'.files.node? loc = besideDest.files.node? loc := by
  have hsucceeds : ((extractAll "j.jar" "d/x"
      [memberOf "a/../b" [1], memberOf "../x" [2], memberOf "c/" [], memberOf "./b" [3]]).run.run besideDest).run.1.toBool =
      true := by decide +kernel
  obtain ⟨n, h', hrun⟩ := Action.exists_yields hsucceeds
  obtain ⟨-, -, hall, -, hyields⟩ := extractAll_contained freshDir_besideDest "j.jar"
    [memberOf "a/../b" [1], memberOf "../x" [2], memberOf "c/" [], memberOf "./b" [3]]
  obtain ⟨hcount, hlast⟩ := hyields n h' hrun
  obtain rfl : n = 2 := hcount.trans (by decide +kernel)
  -- the last member writes where the first one did, and nothing comes behind it
  obtain ⟨contents, hcontents, -, hnode, -⟩ := hlast [memberOf "a/../b" [1], memberOf "../x" [2], memberOf "c/" []]
    (memberOf "./b" [3]) [] rfl (by decide +kernel) (by simp)
  have hdata : contents.data = [3] := by
    obtain rfl : Zip.checked (Crc32.ofBytes [3]) [3] = contents := Option.some.inj hcontents
    rfl
  have hway : ["d", "x"] ++ way (memberOf "./b" [3]).name = ["d", "x", "b"] := by decide +kernel
  rw [hway, hdata] at hnode
  exact ⟨h', hrun, hnode, (hall _ h' hrun).2⟩

end Jar

end Recompile
