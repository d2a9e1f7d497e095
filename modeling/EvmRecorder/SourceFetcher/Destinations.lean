import EvmRecorder.Library.PathWalk
import EvmRecorder.Model.SourceFetcher

/-!
# Where the sources of a bundle are written

The sources of a bundle are written below a temporary directory, at the paths the server
gave. Leading slashes are dropped, `..` is not: a path that goes above its own start
leaves the directory.
-/

namespace EvmRecorder

open PathWalk

/-! ## §1  Paths as walks -/

def stepOf (part : List Char) : Step (List Char) :=
  if isTrivialComponent part then .stay else if part = ['.', '.'] then .up else .down part

def stepsOfChars (chars : List Char) : List (Step (List Char)) := (chars.splitOn '/').map stepOf

def stepsOf (text : String) : List (Step (List Char)) := stepsOfChars text.toList

/-- The components of an absolute path, `.` and `..` resolved lexically. -/
def resolve (text : String) : List (List Char) := walk [] (stepsOf text)

/-- `path` is the directory or lies in it. -/
def Inside (dir path : String) : Prop := resolve dir <+: resolve path

instance (dir path : String) : Decidable (Inside dir path) :=
  inferInstanceAs (Decidable (_ <+: _))

/-- No `..` of the path goes above the place it starts from. -/
def DoesNotClimb (path : String) : Prop := staysBelow 0 (stepsOf path) = true

instance (path : String) : Decidable (DoesNotClimb path) :=
  inferInstanceAs (Decidable (_ = _))

theorem stepsOfChars_slash (first second : List Char) :
    stepsOfChars (first ++ '/' :: second) = stepsOfChars first ++ stepsOfChars second := by
  rw [stepsOfChars, List.splitOn_append_cons_self, List.map_append]
  rfl

theorem walk_stepsOf_slash (place : List (List Char)) (text : List Char) :
    walk place (stepsOfChars (text ++ ['/'])) = walk place (stepsOfChars text) := by
  rw [stepsOfChars_slash, walk_append]
  rfl

/-- Leading slashes do not matter. -/
theorem staysBelow_dropWhile (chars : List Char) :
    staysBelow 0 (stepsOfChars (chars.dropWhile (· = '/'))) = staysBelow 0 (stepsOfChars chars) := by
  induction chars with
  | nil => rfl
  | cons c chars ih =>
      by_cases hc : c = '/'
      · subst hc
        have hslash := stepsOfChars_slash [] chars
        rw [List.nil_append] at hslash
        rw [hslash, List.dropWhile_cons_of_pos (by simp), ih]
        rfl
      · rw [List.dropWhile_cons_of_neg (by simpa using hc)]

theorem not_isAbsolute_dropWhile (chars : List Char) :
    isAbsolute (String.ofList (chars.dropWhile (· = '/'))) = false := by
  rw [isAbsolute, String.toList_ofList, decide_eq_false_iff_not]
  intro h
  have hhead := List.head?_dropWhile_not (fun c => decide (c = '/')) chars
  rw [h] at hhead
  cases hhead

/-- A relative path is walked from where the base ends. -/
theorem resolve_joinText {base relative : String} (h : isAbsolute relative = false) :
    resolve (joinText base relative) = walk (resolve base) (stepsOf relative) := by
  rw [joinText, h, if_neg Bool.false_ne_true]
  split
  · next hbase =>
      rcases Bool.or_eq_true_iff.mp hbase with hempty | hslash
      · obtain rfl : base = "" := String.isEmpty_iff.mp hempty
        rw [String.empty_append]
        rfl
      · obtain ⟨front, hfront⟩ : ∃ front, base.toList = front ++ ['/'] := by
          rw [decide_eq_true_eq, List.getLast?_eq_some_iff] at hslash
          exact hslash
        rw [resolve, resolve, stepsOf, stepsOf, String.toList_append, hfront, List.append_assoc,
          List.singleton_append, stepsOfChars_slash, walk_append, walk_stepsOf_slash]
        rfl
  · rw [resolve, resolve, stepsOf, stepsOf, String.toList_append, String.toList_append,
      List.append_assoc]
    exact (congrArg (walk []) (stepsOfChars_slash base.toList relative.toList)).trans
      (walk_append _ _ _)

theorem resolve_destination (tmp : String) (src : SourcifySourceFile) :
    resolve (destination tmp src) =
      walk (resolve tmp) (stepsOfChars (src.path.toList.dropWhile (· = '/'))) := by
  rw [destination, resolve_joinText (not_isAbsolute_dropWhile _), stepsOf, String.toList_ofList]

theorem inside_destination {src : SourcifySourceFile} (h : DoesNotClimb src.path) (tmp : String) :
    Inside tmp (destination tmp src) := by
  rw [DoesNotClimb, stepsOf, ← staysBelow_dropWhile] at h
  have hprefix := @prefix_walk _ (resolve tmp) _ [] h
  rw [List.append_nil] at hprefix
  rw [Inside, resolve_destination]
  exact hprefix

theorem resolve_first : resolve "/tmp/.tmpaaaaaa" = ["tmp".toList] ++ [".tmpaaaaaa".toList] := by
  decide +kernel

theorem resolve_second : resolve "/tmp/.tmpbbbbbb" = ["tmp".toList] ++ [".tmpbbbbbb".toList] := by
  decide +kernel

/-- A path that climbs is not inside both of two directories. -/
theorem doesNotClimb_of_inside {src : SourcifySourceFile}
    (ha : Inside "/tmp/.tmpaaaaaa" (destination "/tmp/.tmpaaaaaa" src))
    (hb : Inside "/tmp/.tmpbbbbbb" (destination "/tmp/.tmpbbbbbb" src)) :
    DoesNotClimb src.path := by
  rw [Inside, resolve_destination, resolve_first] at ha
  rw [Inside, resolve_destination, resolve_second] at hb
  rw [DoesNotClimb, stepsOf, ← staysBelow_dropWhile]
  exact staysBelow_of_siblings (by decide) ha hb

/-! ## §2  What is written -/

section Writes

variable (host : Host) (bundle : SourcifyContract) (tmp : String)

/-- The loop over the sources comes to write to `dst`. -/
def WritesTo (dst : String) : Prop :=
  ∃ before src after files, bundle.sources = before ++ src :: after ∧
    writeSources host tmp [] before = .ok files ∧
    createParent host files (destination tmp src) = .ok () ∧ dst = destination tmp src

/-- The sources are written below `tmp`, and one of them to `dst`. -/
structure CompileWrites (dst : String) : Prop where
  accepted : ∃ json settings, bundle.metadataJson = some json ∧
    parseMetadataSettings host json = .ok settings
  tempDir : host.tempDir = .ok tmp
  written : WritesTo host bundle tmp dst

variable {host bundle tmp}

theorem CompileWrites.exists_source {dst : String} (h : CompileWrites host bundle tmp dst) :
    ∃ src ∈ bundle.sources, dst = destination tmp src := by
  obtain ⟨before, src, after, files, hsources, -, -, hdst⟩ := h.written
  exact ⟨src, hsources ▸ List.mem_append_right before List.mem_cons_self, hdst⟩

/-- Sources that are written one after the other are written up to each of them. -/
theorem writeSources_before {src : SourcifySourceFile} {before after : List SourcifySourceFile}
    {files all : List (String × String)}
    (h : writeSources host tmp files (before ++ src :: after) = .ok all) :
    ∃ written, writeSources host tmp files before = .ok written ∧
      createParent host written (destination tmp src) = .ok () := by
  induction before generalizing files with
  | nil =>
      rw [List.nil_append, writeSources_cons_eq_ok_iff] at h
      exact ⟨files, rfl, h.1⟩
  | cons first before ih =>
      rw [List.cons_append, writeSources_cons_eq_ok_iff] at h
      obtain ⟨hparent, hwrite, hrest⟩ := h
      obtain ⟨written, hwritten, hsrc⟩ := ih hrest
      exact ⟨written, writeSources_cons_eq_ok_iff.mpr ⟨hparent, hwrite, hwritten⟩, hsrc⟩

/-- A bundle that compiles has had all its sources written. -/
theorem compileWrites_of_compile {solcCmd : String} {preferredContractName : Option String}
    {a : CompiledArtifacts}
    (h : compileSourcifyBundle host bundle solcCmd preferredContractName = .ok a) :
    ∃ tmp, ∀ src ∈ bundle.sources, CompileWrites host bundle tmp (destination tmp src) := by
  simp only [compileSourcifyBundle, recompile, bind_eq_ok_iff] at h
  obtain ⟨run, ⟨json, hjson, settings, hsettings, h⟩, -⟩ := h
  split at h
  · cases h
  · simp only [bind_eq_ok_iff, errorAt_eq_ok_iff] at h
    obtain ⟨tmp, htmp, files, hfiles, -⟩ := h
    refine ⟨tmp, fun src hsrc => ⟨⟨json, settings, okOr_eq_ok_iff.mp hjson, hsettings⟩, htmp, ?_⟩⟩
    obtain ⟨before, after, hsources⟩ := List.append_of_mem hsrc
    rw [hsources] at hfiles
    obtain ⟨written, hwritten, hparent⟩ := writeSources_before hfiles
    exact ⟨before, src, after, written, hsources, hwritten, hparent, rfl⟩

end Writes

/-! ## §3  Containment -/

section Containment

/-- A host on which nothing fails but the parser of the metadata. -/
def lenientHost (parse : String → Except String MetadataDoc) (tmp : String) : Host where
  metadataFromStr := parse
  tempDir := .ok tmp
  createDirAll _ _ := .ok ()
  write _ _ _ := .ok ()
  output _ _ _ := .ok ⟨true, [], []⟩
  fromStr _ := .ok .null
  hexDecode _ := .ok []
  layoutFromValue _ := none

variable {parse : String → Except String MetadataDoc} {bundle : SourcifyContract}

theorem acceptsFiles_lenientHost (tmp : String) : (lenientHost parse tmp).AcceptsFiles :=
  ⟨fun _ _ => rfl, fun _ _ _ => rfl⟩

/-- The metadata that is read is accepted by the parser, and conversely. -/
theorem parseMetadataSettings_isOk_iff {host : Host} {json : String} :
    (∃ settings, parseMetadataSettings host json = .ok settings) ↔
      ∃ doc, host.metadataFromStr json = .ok doc := by
  simp only [parseMetadataSettings, bind_eq_ok_iff, errorAt_eq_ok_iff]
  constructor
  · rintro ⟨settings, doc, hdoc, -⟩
    exact ⟨doc, hdoc⟩
  · rintro ⟨doc, hdoc⟩
    exact ⟨_, doc, hdoc, rfl⟩

theorem compileWrites_lenientHost {json : String} {doc : MetadataDoc}
    (hjson : bundle.metadataJson = some json) (hdoc : parse json = .ok doc)
    {src : SourcifySourceFile} (hsrc : src ∈ bundle.sources) (tmp : String) :
    CompileWrites (lenientHost parse tmp) bundle tmp (destination tmp src) := by
  obtain ⟨settings, hsettings⟩ :=
    (@parseMetadataSettings_isOk_iff (lenientHost parse tmp) json).mpr ⟨doc, hdoc⟩
  obtain ⟨before, after, hsources⟩ := List.append_of_mem hsrc
  have haccepts := @acceptsFiles_lenientHost parse tmp
  obtain ⟨written, hwritten⟩ := haccepts.writeSources tmp [] before
  exact ⟨⟨json, settings, hjson, hsettings⟩, rfl, before, src, after, written, hsources, hwritten,
    haccepts.createParent written _, rfl⟩

/-- The bundle has metadata that can be read; others are rejected before anything is
written. -/
def HasMetadata (parse : String → Except String MetadataDoc) (bundle : SourcifyContract) : Prop :=
  ∃ json doc, bundle.metadataJson = some json ∧ parse json = .ok doc

/-- Whatever the temporary directory and the file system are, everything is written inside
the directory exactly if the bundle is rejected or no path climbs. -/
theorem destinations_inside_iff :
    (∀ host tmp dst, host.metadataFromStr = parse → isAbsolute tmp = true →
        CompileWrites host bundle tmp dst → Inside tmp dst) ↔
      ¬ HasMetadata parse bundle ∨ ∀ src ∈ bundle.sources, DoesNotClimb src.path := by
  constructor
  · intro h
    by_cases hmeta : HasMetadata parse bundle
    · right
      obtain ⟨json, doc, hjson, hdoc⟩ := hmeta
      intro src hsrc
      exact doesNotClimb_of_inside
        (h _ _ _ rfl rfl (compileWrites_lenientHost hjson hdoc hsrc "/tmp/.tmpaaaaaa"))
        (h _ _ _ rfl rfl (compileWrites_lenientHost hjson hdoc hsrc "/tmp/.tmpbbbbbb"))
    · exact .inl hmeta
  · rintro (hnone | hclimb) host tmp dst rfl - hwrites
    · obtain ⟨json, settings, hjson, hsettings⟩ := hwrites.accepted
      obtain ⟨doc, hdoc⟩ := parseMetadataSettings_isOk_iff.mp ⟨settings, hsettings⟩
      exact absurd ⟨json, doc, hjson, hdoc⟩ hnone
    · obtain ⟨src, hsrc, rfl⟩ := hwrites.exists_source
      exact inside_destination (hclimb src hsrc) tmp

end Containment

/-- A source that the server puts above its root. -/
def evilSource : SourcifySourceFile where
  name := "evil.sol"
  path := "/../evil.sol"
  content := ""

def evilBundle : SourcifyContract where
  sources := [evilSource]
  metadataJson := some "\x7b\"compiler\":\x7b\"version\":\"0.8.28\"\x7d\x7d"

/-- It is written beside the temporary directory. -/
theorem destinations_outside :
    CompileWrites (lenientHost (fun _ => .ok ⟨"0.8.28", none⟩) "/tmp/.tmpaaaaaa") evilBundle
        "/tmp/.tmpaaaaaa" (destination "/tmp/.tmpaaaaaa" evilSource) ∧
      destination "/tmp/.tmpaaaaaa" evilSource = "/tmp/.tmpaaaaaa/../evil.sol" ∧
      ¬ Inside "/tmp/.tmpaaaaaa" (destination "/tmp/.tmpaaaaaa" evilSource) :=
  ⟨compileWrites_lenientHost rfl rfl List.mem_cons_self "/tmp/.tmpaaaaaa", by decide +kernel,
    by decide +kernel⟩

end EvmRecorder
