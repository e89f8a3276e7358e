import GateScript.Proofs.Command.Arguments

/-!
Where a result goes.

A path that is made from the name of a source is one name that ends in the extension of the
language. It is never a dash, so a result goes out exactly if a dash is given for it. Without that,
what is made of the text that comes in is put into a file as well, under the name of a dash with the
extension.
-/
namespace GateScript.Command

open Output

section Paths

namespace Path

theorem slash_not_mem_of_mem_pieces {cs p : List Char} (h : p ∈ pieces cs) : '/' ∉ p := by
  induction cs generalizing p with
  | nil =>
    obtain rfl : p = [] := by simpa [pieces] using h
    exact List.not_mem_nil
  | cons c cs ih =>
    rw [pieces] at h
    split_ifs at h with hc
    · rcases List.mem_cons.mp h with rfl | htail
      · exact List.not_mem_nil
      · exact ih htail
    · have hne : '/' ≠ c := fun heq => hc heq.symm
      cases hpieces : pieces cs with
      | nil =>
        obtain rfl : p = [c] := by simpa [hpieces] using h
        simpa using hne
      | cons first others =>
        rw [hpieces] at h ih
        rcases List.mem_cons.mp h with rfl | htail
        · have hfirst : '/' ∉ first := ih List.mem_cons_self
          simp [hne, hfirst]
        · exact ih (List.mem_cons_of_mem _ htail)

theorem pieces_eq_singleton {cs : List Char} (h : '/' ∉ cs) : pieces cs = [cs] := by
  induction cs with
  | nil => rfl
  | cons c cs ih =>
    obtain ⟨hc, hcs⟩ := not_or.mp (fun hmem => h (List.mem_cons.mpr hmem))
    rw [pieces, if_neg (Ne.symm hc), ih hcs]

/-- A name of more than one character without slashes is a path of one part. -/
theorem ofString_name {name : String} (hslash : '/' ∉ name.toList)
    (hlong : 1 < name.toList.length) : ofString name = ⟨"", [name]⟩ := by
  have hroot : rootOf name.toList = "" := by
    unfold rootOf
    split <;> simp_all
  have hempty : name.toList ≠ [] := by
    intro h
    simp [h] at hlong
  have hdot : name.toList ≠ ['.'] := by
    intro h
    simp [h] at hlong
  rw [ofString, hroot, pieces_eq_singleton hslash]
  simp [hempty, hdot]

theorem slash_not_mem_name (s : String) : '/' ∉ (ofString s).name.toList := by
  cases hlast : (ofString s).parts.getLast? with
  | none => simp [name, hlast]
  | some part =>
    obtain ⟨p, hp, rfl⟩ := List.mem_map.mp (List.mem_of_getLast? hlast)
    simpa [name, hlast] using slash_not_mem_of_mem_pieces (List.mem_filter.mp hp).1

theorem splitName_subset (name : List Char) : (splitName name).1 ⊆ name := by
  unfold splitName
  dsimp only
  split_ifs
  · exact List.Subset.refl name
  · exact List.take_subset _ name

theorem slash_not_mem_stem (s : String) : '/' ∉ (ofString s).stem.toList := by
  intro h
  rw [stem, String.toList_ofList] at h
  exact slash_not_mem_name s (splitName_subset _ h)

end Path

theorem slash_not_mem_extension (language : Language) : '/' ∉ language.extension.toList := by
  cases language <;> decide

theorem dot_mem_extension (language : Language) : '.' ∈ language.extension.toList := by
  cases language <;> decide

theorem one_lt_length_extension (language : Language) :
    1 < language.extension.toList.length := by
  cases language <;> decide

/-- A path that is made from the name of a source is one name. -/
theorem pathFor_none (source : String) (language : Language) :
    pathFor source language none = ⟨"", [(Path.ofString source).stem ++ language.extension]⟩ := by
  have hlong := one_lt_length_extension language
  apply Path.ofString_name
  · rw [String.toList_append, List.mem_append]
    exact not_or.mpr ⟨Path.slash_not_mem_stem source, slash_not_mem_extension language⟩
  · rw [String.toList_append, List.length_append]
    omega

@[simp] theorem Path.text_name (name : String) : (⟨"", [name]⟩ : Path).text = name := by
  simp [Path.text]

/-- The test of the path that is made from the name of the source never succeeds. -/
theorem Job.goesOut_iff (job : Job) (language : Language) :
    job.goesOut language = true ↔ job.output = some "-" := by
  have hne : ∀ stem : String, stem ++ language.extension ≠ "-" := by
    intro stem h
    have hmem : '.' ∈ (stem ++ language.extension).toList := by
      rw [String.toList_append]
      exact List.mem_append_right _ (dot_mem_extension language)
    rw [h] at hmem
    revert hmem
    decide
  cases houtput : job.output with
  | none => simp [Job.goesOut, houtput, pathFor_none, Path.text_name, hne]
  | some given => simp [Job.goesOut, houtput]

end Paths

section Disks

namespace Disk

/-- There is a directory at a place, and no file. -/
def DirectoryAt (d : Disk) (place : List String) : Prop :=
  d.files.lookup place = none ∧ d.hasDirectory place = true

instance (d : Disk) (place : List String) : Decidable (d.DirectoryAt place) :=
  inferInstanceAs (Decidable (_ ∧ _))

/-- The file at a place is set, and all else is as before. -/
structure SetsFile (before after : Disk) (place : List String) (bytes : List UInt8) : Prop where
  file : after.files.lookup place = some bytes
  others : ∀ other, other ≠ place → after.files.lookup other = before.files.lookup other
  directories : after.directories = before.directories
  current : after.current = before.current

/-- Files that are left out do not matter to the others. -/
theorem lookup_filter_ne {place other : List String} (hne : other ≠ place)
    (files : List (List String × List UInt8)) :
    (files.filter (·.1 ≠ place)).lookup other = files.lookup other := by
  induction files with
  | nil => rfl
  | cons file files ih =>
    by_cases hplace : file.1 = place
    · have hother : (other == file.1) = false := beq_false_of_ne (hplace ▸ hne)
      rw [List.filter_cons_of_neg (by simp [hplace]), List.lookup_cons, hother, ih]
    · rw [List.filter_cons_of_pos (by simp [hplace]), List.lookup_cons, List.lookup_cons, ih]

theorem setsFile_write (d : Disk) (place : List String) (bytes : List UInt8) :
    d.SetsFile (d.write place bytes) place bytes where
  file := List.lookup_cons_self
  others other hne := by
    rw [write, List.lookup_cons, beq_false_of_ne hne]
    exact lookup_filter_ne hne d.files
  directories := rfl
  current := rfl

variable {d : Disk} {name : String}

/-- What a name of at most 255 bytes leads to. -/
theorem find_name (hup : name ≠ "..") (hsize : name.utf8ByteSize ≤ 255) :
    d.find ⟨"", [name]⟩ = (d.files.lookup [name]).elim
      (if d.hasDirectory [name] then .ok (.directory [name]) else .error .missing)
      fun bytes => .ok (.file [name] bytes) := by
  have hshort : ¬255 < name.utf8ByteSize := by omega
  have hpath : ¬4096 ≤ name.utf8ByteSize := by omega
  cases hfile : d.files.lookup [name] with
  | none => simp [find, hpath, walk, hshort, hup, hfile]
  | some bytes => simp [find, hpath, walk, hshort, hup, hfile]

theorem find_current : d.find ⟨"", []⟩ = .ok (.directory []) := by
  have hpath : ¬4096 ≤ ".".utf8ByteSize := by decide
  simp [find, walk, Path.text, hpath]

theorem placeFor_directory (hup : name ≠ "..") (hsize : name.utf8ByteSize ≤ 255)
    (h : d.DirectoryAt [name]) : d.placeFor ⟨"", [name]⟩ = .error .isDirectory := by
  have hfind : d.find ⟨"", [name]⟩ = .ok (.directory [name]) := by
    simp [find_name hup hsize, h.1, h.2]
  simp [placeFor, hfind]

theorem placeFor_name (hup : name ≠ "..") (hsize : name.utf8ByteSize ≤ 255)
    (h : ¬d.DirectoryAt [name]) : d.placeFor ⟨"", [name]⟩ = .ok [name] := by
  cases hfile : d.files.lookup [name] with
  | some bytes =>
    have hfind : d.find ⟨"", [name]⟩ = .ok (.file [name] bytes) := by
      simp [find_name hup hsize, hfile]
    simp [placeFor, hfind]
  | none =>
    have hdirectory : ¬d.hasDirectory [name] = true := fun hd => h ⟨hfile, hd⟩
    have hfind : d.find ⟨"", [name]⟩ = .error .missing := by
      simp [find_name hup hsize, hfile, hdirectory]
    simp [placeFor, hfind, find_current, Path.name]

end Disk

end Disks

section Runs

variable {language : Language} {toolkit : Toolkit} {input result : String}

/-- The name of the file for what is made of the text that comes in. -/
def dashFile (language : Language) : String := "-" ++ language.extension

theorem pathFor_dash (language : Language) :
    pathFor "-" language none = ⟨"", [dashFile language]⟩ := by
  have hstem : (Path.ofString "-").stem = "-" := by decide
  rw [pathFor_none, hstem, dashFile]

theorem run_dash (disk : Disk) (output : Option String)
    (hcompile : compile toolkit (inputText input) language.name = .ok result) :
    Job.run toolkit disk input ⟨"-", some language, output⟩ =
      Job.deliver ⟨"-", some language, output⟩ language disk result := by
  simp [Job.run, readSource, hcompile]

theorem deliver_out {job : Job} (language : Language) (disk : Disk) (result : String)
    (houtput : job.output = some "-") :
    job.deliver language disk result = .ok ⟨.ok, result, "", disk⟩ := by
  rw [Job.deliver, if_pos ((job.goesOut_iff language).mpr houtput)]

/-- How a result is delivered that no output is given for. -/
theorem deliver_dash (language : Language) (disk : Disk) (result : String) :
    (disk.DirectoryAt [dashFile language] →
      Job.deliver ⟨"-", some language, none⟩ language disk result =
        .ok ⟨.writeError, "", "[Write Error] Could not write output: " ++
          Fault.isDirectory.message ⟨"", [dashFile language]⟩ ++ "\n", disk⟩) ∧
    (¬disk.DirectoryAt [dashFile language] →
      Job.deliver ⟨"-", some language, none⟩ language disk result =
        .ok ⟨.ok, "", "Compiled to: " ++ disk.fullPath [dashFile language] ++ "\n",
          disk.write [dashFile language] (Text.encodeUtf8 result)⟩) := by
  have hgoes : ¬Job.goesOut ⟨"-", some language, none⟩ language = true := by
    simp [Job.goesOut_iff]
  have hup : dashFile language ≠ ".." := by cases language <;> decide
  have hsize : (dashFile language).utf8ByteSize ≤ 255 := by cases language <;> decide
  have hnull : nullChar ∉ (dashFile language).toList := by cases language <;> decide
  constructor
  · intro hdirectory
    have hplace := Disk.placeFor_directory hup hsize hdirectory
    simp [Job.deliver, hgoes, pathFor_dash, hnull, hplace]
  · intro hdirectory
    have hplace := Disk.placeFor_name hup hsize hdirectory
    simp [Job.deliver, hgoes, pathFor_dash, hnull, hplace]

/-- What is made of the text that comes in does not go out unless a dash is given for it. On every
command line that gives no output it is put into a file, or, if a directory has the name of that
file, nowhere. With a dash given in front, the same command line sends it out and leaves the disk
alone. -/
theorem standard_input_filed (disk : Disk)
    (hcompile : compile toolkit (inputText input) language.name = .ok result) :
    (Job.ofArgs ["-l", language.name, "-"] = .run ⟨"-", some language, none⟩ ∧
      "output" ∉ writtenKeys compileOptions ["-l", language.name, "-"]) ∧
    ∀ args job, Job.ofArgs args = .run job → "output" ∉ writtenKeys compileOptions args →
      job.source = "-" → job.language = some language →
        (disk.DirectoryAt [dashFile language] →
          job.run toolkit disk input =
            .ok ⟨.writeError, "", "[Write Error] Could not write output: " ++
              Fault.isDirectory.message ⟨"", [dashFile language]⟩ ++ "\n", disk⟩) ∧
        (¬disk.DirectoryAt [dashFile language] → ∃ after,
          disk.SetsFile after [dashFile language] (Text.encodeUtf8 result) ∧
          job.run toolkit disk input =
            .ok ⟨.ok, "", "Compiled to: " ++ disk.fullPath [dashFile language] ++ "\n", after⟩) ∧
        ∃ direct, Job.ofArgs ("-o" :: "-" :: args) = .run direct ∧
          direct.run toolkit disk input = .ok ⟨.ok, result, "", disk⟩ := by
  constructor
  · cases language <;> decide +kernel
  intro args job hargs hunset hsource hlanguage
  have houtput : job.output = none := Job.ofArgs_unset hargs hunset
  obtain ⟨source, given, output⟩ := job
  obtain rfl : source = "-" := hsource
  obtain rfl : given = some language := hlanguage
  obtain rfl : output = none := houtput
  have hrun := run_dash disk none hcompile
  obtain ⟨hlost, hfiled⟩ := deliver_dash language disk result
  refine ⟨fun hdirectory => hrun.trans (hlost hdirectory), fun hdirectory => ?_, ?_⟩
  · exact ⟨_, disk.setsFile_write _ _, hrun.trans (hfiled hdirectory)⟩
  · have hshape : shapeOf compileOptions "-" = .operand := rfl
    refine ⟨_, Job.ofArgs_output hargs hunset hshape, ?_⟩
    rw [run_dash disk (some "-") hcompile]
    exact deliver_out language disk result rfl

/-- Packages that make the same text of all circuits. -/
def oneText (text : String) : Toolkit := fun _ => some fun _ => .text text

/-- A disk that a result was put on before. -/
def usedDisk : Disk := ⟨"/home", [(["a.sph"], [48]), (["-.qasm"], [49])], [["-.json"]]⟩

theorem standard_input_filed_again :
    compile (oneText "T") (inputText "0 -> H\r\n") "qasm" = .ok "T" ∧
    Job.ofArgs ["-", "--lang=qasm"] = .run ⟨"-", some .qasm, none⟩ ∧
      "output" ∉ writtenKeys compileOptions ["-", "--lang=qasm"] ∧
    (∃ after, usedDisk.SetsFile after ["-.qasm"] [84] ∧
      Job.run (oneText "T") usedDisk "0 -> H\r\n" ⟨"-", some .qasm, none⟩ =
        .ok ⟨.ok, "", "Compiled to: /home/-.qasm\n", after⟩) ∧
    ∃ direct, Job.ofArgs ["-o", "-", "-", "--lang=qasm"] = .run direct ∧
      direct.run (oneText "T") usedDisk "0 -> H\r\n" = .ok ⟨.ok, "T", "", usedDisk⟩ := by
  have hcompile : compile (oneText "T") (inputText "0 -> H\r\n") Language.qasm.name = .ok "T" := by
    decide +kernel
  have hargs : Job.ofArgs ["-", "--lang=qasm"] = .run ⟨"-", some .qasm, none⟩ := by decide +kernel
  have hunset : "output" ∉ writtenKeys compileOptions ["-", "--lang=qasm"] := by decide +kernel
  have hfile : ¬usedDisk.DirectoryAt [dashFile .qasm] := by decide
  have hsaid : "Compiled to: " ++ usedDisk.fullPath [dashFile .qasm] ++ "\n" =
      "Compiled to: /home/-.qasm\n" := by decide +kernel
  have hname : dashFile .qasm = "-.qasm" := by decide
  have hbytes : Text.encodeUtf8 "T" = [84] := by decide +kernel
  obtain ⟨-, hlines⟩ := standard_input_filed usedDisk hcompile
  obtain ⟨-, hfiled, hdirect⟩ := hlines _ _ hargs hunset rfl rfl
  rw [hsaid, hname, hbytes] at hfiled
  exact ⟨hcompile, hargs, hunset, hfiled hfile, hdirect⟩

/-- The documented command line writes a file and sends nothing out. -/
theorem run_dash_documented :
    compile (oneText "OPENQASM 2.0;\n") (inputText "0 -> H") "qasm" = .ok "OPENQASM 2.0;\n" ∧
    Job.ofArgs ["-l", "qasm", "-"] = .run ⟨"-", some .qasm, none⟩ ∧
    Job.run (oneText "OPENQASM 2.0;\n") ⟨"/home", [], []⟩ "0 -> H" ⟨"-", some .qasm, none⟩ =
      .ok ⟨.ok, "", "Compiled to: /home/-.qasm\n",
        ⟨"/home", [(["-.qasm"], Text.encodeUtf8 "OPENQASM 2.0;\n")], []⟩⟩ := by
  decide +kernel

end Runs

end GateScript.Command
