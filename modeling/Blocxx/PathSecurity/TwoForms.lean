import Blocxx.PathSecurity.Soundness

/-!
This file finds the relative paths for which the two forms of `security` agree.
-/

namespace Blocxx.PathSecurity
open Library Library.Pieces

variable {Failure : Type} {fs : FileSystem Failure} {uid : Nat}

/-- A component that `path_security` looks up. -/
def IsPlain (name : Name) : Prop := name ≠ ['.'] ∧ name ≠ ['.', '.']

instance (name : Name) : Decidable (IsPlain name) := inferInstanceAs (Decidable (_ ∧ _))

/-- Both forms of `security` return the same answer or both throw. -/
def FormsAgree (fs : FileSystem Failure) (uid : Nat) (baseDir relPath : Path) : Prop :=
  ∃ fuel, ∀ more, fuel ≤ more → ∃ whole parts,
    security fs uid more (baseDir ++ '/' :: relPath) = some whole ∧
      securityFrom fs uid more baseDir relPath = some parts ∧ whole.toOption = parts.toOption

/-- The answer of a walk with this status before its loop, when its start is secure. -/
def verdict (uid : Nat) (status : EFileStatusReturn) (resolution : Resolution) :
    ESecurity × Path :=
  answer true (Walk.finish uid ⟨⟨[], []⟩, .secureDir, 0, status⟩ resolution)

/-- The verdict depends on the kept status, on the regular files, and on the real path. -/
theorem verdict_eq (status : EFileStatusReturn) (resolution : Resolution) :
    verdict uid status resolution =
      (if statusAfter uid status resolution.visits = .fileOk then
        if ∃ visit ∈ resolution.visits, visit.info.type = .regular then .secureFile else .secureDir
      else .insecure, render resolution.names) := by
  rw [verdict, answer, Walk.finish]
  dsimp only
  rw [fold_fileStatus, fold_statusIfSecure]
  simp [PartiallyResolvedPath.getResolved]

/-- The look-ups of the directories above come first. -/
def Resolution.after (above : List Visit) (resolution : Resolution) : Resolution :=
  { resolution with visits := above ++ resolution.visits }

/-- Directories above change nothing but the status before the walk. -/
theorem verdict_after {above : List Visit}
    (directories : ∀ visit ∈ above, visit.info.type = .directory) (status : EFileStatusReturn)
    (resolution : Resolution) :
    verdict uid status (resolution.after above) =
      verdict uid (statusAfter uid status above) resolution := by
  have sameStatus : statusAfter uid status (above ++ resolution.visits) =
      statusAfter uid (statusAfter uid status above) resolution.visits := by
    simp only [statusAfter, List.getLast?_append]
    cases resolution.visits.getLast? with
    | none => rfl
    | some visit => rfl
  have sameFiles : (∃ visit ∈ above ++ resolution.visits, visit.info.type = .regular) ↔
      ∃ visit ∈ resolution.visits, visit.info.type = .regular := by
    constructor
    · rintro ⟨visit, member, regular⟩
      rcases List.mem_append.mp member with inAbove | inRest
      · rw [directories visit inAbove] at regular
        cases regular
      · exact ⟨visit, inRest, regular⟩
    · rintro ⟨visit, member, regular⟩
      exact ⟨visit, List.mem_append_right _ member, regular⟩
  rw [verdict_eq, verdict_eq]
  simp only [Resolution.after, sameStatus, sameFiles]

/-- A walk with a look-up forgets the status before it. -/
theorem verdict_eq_iff {status other : EFileStatusReturn} {resolution : Resolution} :
    verdict uid status resolution = verdict uid other resolution ↔
      resolution.visits ≠ [] ∨ (status = .fileOk ↔ other = .fileOk) := by
  rw [verdict_eq, verdict_eq]
  rcases List.eq_nil_or_concat resolution.visits with empty | ⟨before, last, visits⟩
  · rw [empty]
    by_cases first : status = .fileOk
    · by_cases second : other = .fileOk
      · simp [statusAfter, first, second]
      · simp [statusAfter, first, second]
    · by_cases second : other = .fileOk
      · simp [statusAfter, first, second]
      · simp [statusAfter, first, second]
  · rw [visits, List.concat_eq_append]
    simp [statusAfter]

section Resolve

variable {budget : Nat} {above dir names rest pending : List Name} {resolution : Resolution}

/-- A directory is entered. -/
theorem resolve_directory {name : Name} (plain : IsPlain name) {info : FileInformation}
    (found : fs.getFileInformation (render (above ++ [name])) = .ok info)
    (directory : info.type = .directory) :
    resolve fs budget above (name :: rest) =
      (resolve fs budget (above ++ [name]) rest).map
        (.visit ⟨above ++ [name], info, rest.isEmpty⟩) := by
  rw [resolve, if_neg plain.1, if_neg plain.2]
  simp only [found, directory]

/-- These are the look-ups of the directories from one directory down to another. -/
structure Descent (fs : FileSystem Failure) (dir names rest : List Name) (visits : List Visit) :
    Prop where
  directories : ∀ visit ∈ visits, visit.info.type = .directory
  empty : visits = [] ↔ names = []
  last : ∀ visit, visits.getLast? = some visit →
    fs.getFileInformation (render dir) = .ok visit.info ∧ visit.last = rest.isEmpty

/-- The components of a real directory lead to it, whatever follows them. -/
theorem resolve_descent (budget : Nat) (rest : List Name) (names : List Name) : ∀ above,
    Way fs (· = .directory) (above ++ names) →
      ∃ visits, Descent fs (above ++ names) names rest visits ∧
        resolve fs budget above (names ++ rest) =
          (resolve fs budget (above ++ names) rest).map (.after visits) := by
  induction names with
  | nil =>
      intro above way
      refine ⟨[], ?_, ?_⟩
      · exact {
          directories := by simp
          empty := by simp
          last := by simp }
      · rw [List.nil_append, List.append_nil]
        cases resolve fs budget above rest <;> rfl
  | cons name names ih =>
      intro above way
      obtain ⟨info, found, directory⟩ := way.entries (above ++ [name]) (by simp) (by simp)
      have isName := way.isName name (by simp)
      have more : above ++ name :: names = (above ++ [name]) ++ names := by simp
      rw [more] at way ⊢
      obtain ⟨visits, descent, resolved⟩ := ih (above ++ [name]) way
      refine ⟨⟨above ++ [name], info, (names ++ rest).isEmpty⟩ :: visits, ?_, ?_⟩
      · exact {
          directories := by
            intro visit member
            rcases List.mem_cons.mp member with rfl | later
            · exact directory
            · exact descent.directories visit later
          empty := by simp
          last := by
            intro visit ends
            by_cases finished : names = []
            · have none : visits = [] := descent.empty.mpr finished
              subst none finished
              obtain rfl : _ = visit := by simpa using ends
              exact ⟨by simpa using found, rfl⟩
            · have some : visits ≠ [] := mt descent.empty.mp finished
              apply descent.last visit
              rwa [List.getLast?_cons_of_ne_nil some] at ends }
      · have plain : IsPlain name := ⟨isName.notCurdir, isName.notParent⟩
        rw [List.cons_append, resolve_directory plain found directory, resolved]
        cases resolve fs budget (above ++ [name] ++ names) rest <;> rfl

/-- A path without links that resolves and has no regular file leads through directories. -/
theorem directories_of_resolve (names : List Name) : ∀ above resolution,
    Way fs (· = .directory) above → Way fs (· ≠ .symlink) (above ++ names) →
      resolve fs budget above names = .ok resolution →
        (∀ visit ∈ resolution.visits, visit.info.type ≠ .regular) →
          Way fs (· = .directory) (above ++ names) := by
  induction names with
  | nil =>
      intro above resolution way _ _ _
      rwa [List.append_nil]
  | cons name rest ih =>
      intro above resolution way real ends noFile
      obtain ⟨info, found, notLink⟩ := real.entries (above ++ [name]) (by simp) (by simp)
      have isName := real.isName name (by simp)
      have more : above ++ name :: rest = (above ++ [name]) ++ rest := by simp
      cases type : info.type with
      | directory =>
          rw [resolve_directory ⟨isName.notCurdir, isName.notParent⟩ found type] at ends
          obtain ⟨later, resolved, rfl⟩ := map_visit_eq_ok.mp ends
          rw [more] at real ⊢
          apply ih (above ++ [name]) later (way.concat isName found type) real resolved
          intro visit member
          exact noFile visit (List.mem_cons_of_mem _ member)
      | regular =>
          rw [resolve, if_neg isName.notCurdir, if_neg isName.notParent] at ends
          simp only [found, type] at ends
          split at ends
          · obtain rfl := Except.ok.inj ends
            exact absurd type (noFile _ List.mem_cons_self)
          · cases ends
      | symlink => exact absurd type notLink
      | special | unknown =>
          rw [resolve, if_neg isName.notCurdir, if_neg isName.notParent] at ends
          simp only [found, type] at ends
          cases ends

/-- Dots are resolved without a look-up. -/
theorem resolve_dots (pending : List Name) : ∀ dir,
    (¬ ∃ name ∈ pending, IsPlain name) →
      ∃ names, resolve fs budget dir pending = .ok ⟨names, []⟩ := by
  induction pending with
  | nil =>
      intro dir _
      exact ⟨dir, by rw [resolve]⟩
  | cons name rest ih =>
      intro dir dots
      have later : ¬ ∃ part ∈ rest, IsPlain part := by
        rintro ⟨part, member, plain⟩
        exact dots ⟨part, List.mem_cons_of_mem _ member, plain⟩
      rw [resolve]
      by_cases curdir : name = ['.']
      · rw [if_pos curdir]
        exact ih dir later
      · rw [if_neg curdir]
        by_cases parent : name = ['.', '.']
        · rw [if_pos parent]
          exact ih dir.dropLast later
        · exact absurd ⟨name, List.mem_cons_self, curdir, parent⟩ dots

/-- Another component is looked up. -/
theorem Resolves.visits_ne_nil {result : Except (PathException Failure) Resolution}
    (resolves : Resolves fs budget dir pending result) (ok : result = .ok resolution)
    (named : ∃ name ∈ pending, IsPlain name) : resolution.visits ≠ [] := by
  induction resolves generalizing resolution with
  | done budget dir => simp at named
  | curdir later ih =>
      apply ih ok
      obtain ⟨name, member, plain⟩ := named
      rcases List.mem_cons.mp member with rfl | inRest
      · exact absurd rfl plain.1
      · exact ⟨name, inRest, plain⟩
  | parent later ih =>
      apply ih ok
      obtain ⟨name, member, plain⟩ := named
      rcases List.mem_cons.mp member with rfl | inRest
      · exact absurd rfl plain.2
      · exact ⟨name, inRest, plain⟩
  | file plain found regular =>
      obtain rfl : _ = resolution := Except.ok.inj ok
      simp
  | directory plain found directory later ih =>
      obtain ⟨after, ends, rfl⟩ := map_visit_eq_ok.mp ok
      simp [Resolution.visit]
  | link plain found symlink reads later ih =>
      obtain ⟨after, ends, rfl⟩ := map_visit_eq_ok.mp ok
      simp [Resolution.visit]
  | missing | notDirectory | tooManyLinks | unreadable | special => cases ok

end Resolve

/-- The base directory is a way of directories whose ends pass the check of the other form. -/
structure SecureBase (fs : FileSystem Failure) (uid : Nat) (dir : List Name)
    (root base : FileInformation) : Prop where
  way : Way fs (· = .directory) dir
  rootFound : fs.getFileInformation ['/'] = .ok root
  rootOk : fileOk root uid (dir = []) = .fileOk
  baseFound : fs.getFileInformation (render dir) = .ok base
  baseOk : fileOk base uid true = .fileOk

/-- A status that passes for the result passes for a directory above it. -/
theorem fileOk_weaken {info : FileInformation} {fullPath weaker : Bool}
    (ok : fileOk info uid fullPath = .fileOk) (implies : weaker = true → fullPath = true) :
    fileOk info uid weaker = .fileOk :=
  fileOk_eq_fileOk.mpr ((fileOk_eq_fileOk.mp ok).weaken implies)

theorem Canonical.way {path : Path} (canonical : Canonical fs path) :
    Way fs (· ≠ .symlink) (pieces '/' path) where
  isName := by
    intro name member
    obtain ⟨notCurdir, notParent⟩ := canonical.names name member
    exact ⟨isPiece_of_mem member, notCurdir, notParent⟩
  entries := canonical.links

/-- The status before the loop of the form with one path. -/
def firstStatus (uid : Nat) (root : FileInformation) (names : List Name) : EFileStatusReturn :=
  if names = [] then getFileStatus root uid true else .fileBadOther

/-- An absolute path below a secure root is judged by the verdict. -/
theorem judged_eq {root : FileInformation} (found : fs.getFileInformation ['/'] = .ok root)
    {path : Path} (rootOk : fileOk root uid (pieces '/' path = []) = .fileOk) :
    judged fs uid path = (resolve fs MAX_SYMBOLIC_LINKS [] (pieces '/' path)).map
      (verdict uid (firstStatus uid root (pieces '/' path))) := by
  have secure : decide (getFileStatus root uid (pieces '/' path = []) = .fileOk) = true := by
    rw [decide_eq_true_iff]
    exact rootOk
  rw [judged, found]
  dsimp only
  rw [secure]
  rfl

/-- A secure judgement has a secure root. -/
theorem rootOk_of_judged {path real : Path}
    (judges : judged fs uid path = .ok (.secureDir, real)) :
    ∃ root, fs.getFileInformation ['/'] = .ok root ∧
      fileOk root uid (pieces '/' path = []) = .fileOk := by
  obtain ⟨root, resolution, found, _, _, rootOk, _⟩ :=
    judged_secure_iff.mp ⟨.secureDir, judges, by decide⟩
  exact ⟨root, found, rootOk⟩

/-- The directories of a secure answer are looked up one by one. -/
theorem resolve_way {names : List Name} (way : Way fs (· = .directory) names) (budget : Nat)
    (rest : List Name) : ∃ visits, Descent fs names names rest visits ∧
      resolve fs budget [] (names ++ rest) =
        (resolve fs budget names rest).map (.after visits) :=
  resolve_descent budget rest names [] way

theorem Descent.statusAfter_root {rest : List Name} {visits : List Visit}
    (descent : Descent fs [] [] rest visits) (status : EFileStatusReturn) :
    statusAfter uid status visits = status := by
  rw [descent.empty.mpr rfl]
  rfl

theorem Descent.statusAfter_below {names rest : List Name} {visits : List Visit}
    (descent : Descent fs names names rest visits) (below : names ≠ [])
    (status : EFileStatusReturn) : ∃ base, fs.getFileInformation (render names) = .ok base ∧
      statusAfter uid status visits = getFileStatus base uid rest.isEmpty := by
  have some : visits ≠ [] := mt descent.empty.mp below
  have ends := List.getLast?_eq_some_getLast some
  obtain ⟨found, last⟩ := descent.last _ ends
  refine ⟨(visits.getLast some).info, found, ?_⟩
  rw [statusAfter, ends, ← last]

/-- A canonical directory that `security` calls secure is a secure base. -/
theorem secureBase_of_security {fuel : Nat} {baseDir real : Path}
    (canonical : Canonical fs baseDir)
    (secure : security fs uid fuel baseDir = some (.ok (.secureDir, real))) :
    ∃ root base, SecureBase fs uid (pieces '/' baseDir) root base := by
  have absolute : isPathAbsolute baseDir = true := by
    rw [isPathAbsolute, canonical.absolute]
    rfl
  rw [security, abspath_of_absolute absolute] at secure
  have judges := (pathSecurity_eq_judged absolute secure).symm
  obtain ⟨root, rootFound, rootOk⟩ := rootOk_of_judged judges
  rw [judged_eq rootFound rootOk] at judges
  cases resolved : resolve fs MAX_SYMBOLIC_LINKS [] (pieces '/' baseDir) with
  | error exception =>
      rw [resolved] at judges
      cases judges
  | ok resolution =>
      rw [resolved] at judges
      have answers : verdict uid (firstStatus uid root (pieces '/' baseDir)) resolution =
          (.secureDir, real) := Except.ok.inj judges
      rw [verdict_eq, Prod.mk.injEq] at answers
      obtain ⟨classified, _⟩ := answers
      split at classified
      next kept =>
        split at classified
        · cases classified
        next noFile =>
          push Not at noFile
          have way : Way fs (· = .directory) (pieces '/' baseDir) :=
            directories_of_resolve (pieces '/' baseDir) [] resolution .nil canonical.way resolved
              noFile
          obtain ⟨visits, descent, alone⟩ := resolve_way way MAX_SYMBOLIC_LINKS []
          rw [List.append_nil, resolved, resolve] at alone
          obtain rfl : resolution = _ := Except.ok.inj alone
          simp only [Resolution.after, List.append_nil] at kept
          by_cases atRoot : pieces '/' baseDir = []
          · rw [atRoot] at descent way rootOk kept ⊢
            rw [descent.statusAfter_root] at kept
            exact ⟨root, root, way, rootFound, rootOk, rootFound, kept⟩
          · obtain ⟨base, baseFound, status⟩ := descent.statusAfter_below atRoot _
            rw [status] at kept
            exact ⟨root, base, way, rootFound, rootOk, baseFound, kept⟩
      next => cases classified

section Forms

variable {dir : List Name} {root base : FileInformation} {relPath : Path}

/-- The status that the form with a base directory has before its loop. -/
def baseStatus (uid : Nat) (base : FileInformation) (relPath : Path) : EFileStatusReturn :=
  if relPath = [] then getFileStatus base uid true else .fileBadOther

/-- Enough fuel makes the form with a base directory stop with its verdict. -/
theorem securityFrom_verdict (secure : SecureBase fs uid dir root base)
    (relative : relPath.head? ≠ some '/') : ∃ fuel, ∀ more, fuel ≤ more →
      securityFrom fs uid more (render dir) relPath =
        some ((resolve fs MAX_SYMBOLIC_LINKS dir (pieces '/' relPath)).map
          (verdict uid (baseStatus uid base relPath))) := by
  have dirPieces : ∀ name ∈ dir, IsPiece '/' name :=
    fun name member => (secure.way.isName name member).piece
  obtain ⟨prp, represents, starts⟩ := startWalk_eq uid dirPieces relative secure.baseFound
  obtain ⟨fuel, runs⟩ := returns_of_resolves uid
    (resolves fs MAX_SYMBOLIC_LINKS dir (pieces '/' relPath))
    ⟨prp, .secureDir, 0, baseStatus uid base relPath⟩ represents rfl
  refine ⟨fuel, fun more enough => ?_⟩
  have longer := Loop.run_mono enough runs
  rw [securityFrom, pathSecurityFrom, starts]
  change (Loop.run (body fs uid) more
    ⟨prp, .secureDir, 0, baseStatus uid base relPath⟩).map (fun last => last.map (answer true)) = _
  rw [longer, Option.map_some]
  have anywhere : Walk.finish uid ⟨prp, .secureDir, 0, baseStatus uid base relPath⟩ =
      Walk.finish uid ⟨⟨[], []⟩, .secureDir, 0, baseStatus uid base relPath⟩ :=
    funext (Walk.finish_prp uid ⟨⟨[], []⟩, .secureDir, 0, baseStatus uid base relPath⟩ prp)
  rw [anywhere]
  cases resolve fs MAX_SYMBOLIC_LINKS dir (pieces '/' relPath) <;> rfl

/-- The status of the form with one path when its walk comes to the base directory. -/
def wholeStatus (uid : Nat) (dir : List Name) (base : FileInformation) (relPath : Path) :
    EFileStatusReturn :=
  if dir = [] then baseStatus uid base relPath
  else getFileStatus base uid (pieces '/' relPath).isEmpty

theorem pieces_whole (dirPieces : ∀ name ∈ dir, IsPiece '/' name) (relPath : Path) :
    pieces '/' (render dir ++ '/' :: relPath) = dir ++ pieces '/' relPath := by
  by_cases atRoot : dir = []
  · subst atRoot
    simp [render]
  · rw [render, if_neg atRoot, pieces_preceded_append dirPieces _ (.inr rfl), pieces_separator]

/-- The form with one path comes to the base directory and goes on like the other form. -/
theorem judged_whole (secure : SecureBase fs uid dir root base)
    (relative : relPath.head? ≠ some '/') :
    judged fs uid (render dir ++ '/' :: relPath) =
      (resolve fs MAX_SYMBOLIC_LINKS dir (pieces '/' relPath)).map
        (verdict uid (wholeStatus uid dir base relPath)) := by
  have whole : pieces '/' (render dir ++ '/' :: relPath) = dir ++ pieces '/' relPath :=
    pieces_whole (fun name member => (secure.way.isName name member).piece) relPath
  have rootOk : fileOk root uid (pieces '/' (render dir ++ '/' :: relPath) = []) = .fileOk := by
    apply fileOk_weaken secure.rootOk
    rw [whole, decide_eq_true_iff, decide_eq_true_iff, List.append_eq_nil_iff]
    exact And.left
  obtain ⟨visits, descent, resolved⟩ :=
    resolve_way secure.way MAX_SYMBOLIC_LINKS (pieces '/' relPath)
  rw [judged_eq secure.rootFound rootOk, whole, resolved]
  have status : statusAfter uid (firstStatus uid root (dir ++ pieces '/' relPath)) visits =
      wholeStatus uid dir base relPath := by
    rw [wholeStatus]
    by_cases atRoot : dir = []
    · subst atRoot
      obtain rfl : root = base := Except.ok.inj (secure.rootFound.symm.trans secure.baseFound)
      rw [if_pos rfl, descent.statusAfter_root, firstStatus, baseStatus, List.nil_append]
      simp only [pieces_eq_nil relative]
    · obtain ⟨info, found, kept⟩ := descent.statusAfter_below atRoot _
      rw [secure.baseFound] at found
      obtain rfl := Except.ok.inj found
      rw [if_neg atRoot, kept]
  rw [← status]
  cases resolve fs MAX_SYMBOLIC_LINKS dir (pieces '/' relPath) with
  | error exception => rfl
  | ok resolution => exact congrArg Except.ok (verdict_after descent.directories _ resolution)

/-- The two statuses are equally good below the root only when there is nothing to resolve. -/
theorem wholeStatus_iff (secure : SecureBase fs uid dir root base) :
    (wholeStatus uid dir base relPath = .fileOk ↔ baseStatus uid base relPath = .fileOk) ↔
      dir = [] ∨ relPath = [] := by
  rw [wholeStatus]
  by_cases atRoot : dir = []
  · simp [atRoot]
  · have passes : getFileStatus base uid (pieces '/' relPath).isEmpty = .fileOk :=
      fileOk_weaken secure.baseOk fun _ => rfl
    have passesWhole : getFileStatus base uid true = .fileOk := secure.baseOk
    rw [if_neg atRoot, baseStatus]
    by_cases empty : relPath = []
    · simp [passesWhole, empty]
    · simp [passes, atRoot, empty]

/-- The two verdicts agree at the root, on no path, and after a look-up. -/
theorem verdicts_agree_iff (secure : SecureBase fs uid dir root base) (names : List Name) :
    ((resolve fs MAX_SYMBOLIC_LINKS dir names).map
        (verdict uid (wholeStatus uid dir base relPath))).toOption =
      ((resolve fs MAX_SYMBOLIC_LINKS dir names).map
        (verdict uid (baseStatus uid base relPath))).toOption ↔
      dir = [] ∨ relPath = [] ∨ ∃ name ∈ names, IsPlain name := by
  by_cases named : ∃ name ∈ names, IsPlain name
  · rw [iff_true_right (.inr (.inr named))]
    cases resolved : resolve fs MAX_SYMBOLIC_LINKS dir names with
    | error exception => rfl
    | ok resolution =>
        have looked : resolution.visits ≠ [] :=
          (resolves fs MAX_SYMBOLIC_LINKS dir names).visits_ne_nil resolved named
        exact congrArg some (verdict_eq_iff.mpr (.inl looked))
  · obtain ⟨real, resolved⟩ : ∃ real, resolve fs MAX_SYMBOLIC_LINKS dir names = .ok ⟨real, []⟩ :=
      resolve_dots names dir named
    rw [resolved, or_iff_left named, ← wholeStatus_iff secure]
    change some (verdict uid _ _) = some (verdict uid _ _) ↔ _
    rw [Option.some_inj, verdict_eq_iff]
    simp

end Forms

theorem Canonical.eq_root_iff {path : Path} (canonical : Canonical fs path) :
    path = ['/'] ↔ pieces '/' path = [] := by
  constructor
  · rintro rfl
    rw [pieces_separator, pieces_nil]
  · intro empty
    rw [canonical.separators, empty]
    rfl

/-- The two forms of `security` agree exactly when the base directory is the root, the relative
path is empty, or the relative path has a component other than the two dots. -/
theorem forms_agree_iff (fs : FileSystem Failure) (uid : Nat) (baseDir relPath : Path)
    (canonical : Canonical fs baseDir)
    (secure : ∃ fuel real, security fs uid fuel baseDir = some (.ok (.secureDir, real)))
    (relative : isPathAbsolute relPath = false) :
    FormsAgree fs uid baseDir relPath ↔
      baseDir = ['/'] ∨ relPath = [] ∨ ∃ name ∈ pieces '/' relPath, IsPlain name := by
  obtain ⟨fuel, real, answers⟩ := secure
  obtain ⟨root, base, secureBase⟩ := secureBase_of_security canonical answers
  have inside : relPath.head? ≠ some '/' := by simpa [isPathAbsolute] using relative
  have absolute : isPathAbsolute (baseDir ++ '/' :: relPath) = true := by
    rw [isPathAbsolute, List.head?_append, canonical.absolute]
    rfl
  obtain ⟨first, judges⟩ := pathSecurity_judged fs uid absolute
  obtain ⟨second, decides⟩ := securityFrom_verdict secureBase inside
  have judged := judged_whole secureBase inside
  rw [← canonical.separators] at decides judged
  rw [canonical.eq_root_iff, ← verdicts_agree_iff secureBase]
  constructor
  · rintro ⟨enough, agree⟩
    obtain ⟨whole, parts, wholeAnswers, partsAnswers, same⟩ :=
      agree (max enough (max first second)) (by omega)
    rw [security, abspath_of_absolute absolute, judges _ (by omega), judged,
      Option.some_inj] at wholeAnswers
    rw [decides _ (by omega), Option.some_inj] at partsAnswers
    rwa [wholeAnswers, partsAnswers]
  · intro same
    refine ⟨max first second, fun more enough => ?_⟩
    refine ⟨_, _, ?_, decides more (by omega), same⟩
    rw [security, abspath_of_absolute absolute, judges more (by omega), judged]

/-- The directory of the tree is a canonical path. -/
theorem canonical_linkedTree : Canonical linkedTree.fileSystem "/d".toList := by
  have isName : IsName "d".toList := ⟨⟨by decide, by decide⟩, by decide, by decide⟩
  have found : linkedTree.fileSystem.getFileInformation (render ([] ++ ["d".toList])) =
      .ok ⟨0, 0, .directory, 0o755⟩ := by
    decide
  have way : Way linkedTree.fileSystem (· ≠ .symlink) ["d".toList] :=
    Way.nil.concat isName found (by decide)
  exact way.canonical

/-- The directory itself is secure under the one form and insecure under the other. -/
theorem forms_disagree_linkedTree : Canonical linkedTree.fileSystem "/d".toList ∧
    security linkedTree.fileSystem 1000 9 "/d".toList = some (.ok (.secureDir, "/d".toList)) ∧
      isPathAbsolute ".".toList = false ∧
        ¬ FormsAgree linkedTree.fileSystem 1000 "/d".toList ".".toList := by
  refine ⟨canonical_linkedTree, by decide, by decide, ?_⟩
  rintro ⟨fuel, agree⟩
  obtain ⟨whole, parts, wholeAnswers, partsAnswers, same⟩ := agree (max fuel 9) (by omega)
  have secure : security linkedTree.fileSystem 1000 9 "/d/.".toList =
      some (.ok (.secureDir, "/d".toList)) := by
    decide
  have insecure : securityFrom linkedTree.fileSystem 1000 9 "/d".toList ".".toList =
      some (.ok (.insecure, "/d".toList)) := by
    decide
  have enough : 9 ≤ max fuel 9 := Nat.le_max_right fuel 9
  have secureLater := pathSecurity_mono enough secure
  have insecureLater := pathSecurityFrom_mono enough insecure
  obtain rfl : whole = _ := Option.some.inj (wholeAnswers.symm.trans secureLater)
  obtain rfl : parts = _ := Option.some.inj (partsAnswers.symm.trans insecureLater)
  cases same

theorem forms_agree_iff_linkedTree :
    FormsAgree linkedTree.fileSystem 1000 "/d".toList "../in/f".toList ↔
      "/d".toList = ['/'] ∨ "../in/f".toList = [] ∨
        ∃ name ∈ pieces '/' "../in/f".toList, IsPlain name :=
  forms_agree_iff linkedTree.fileSystem 1000 "/d".toList "../in/f".toList canonical_linkedTree
    ⟨9, "/d".toList, by decide⟩ (by decide)

end Blocxx.PathSecurity
