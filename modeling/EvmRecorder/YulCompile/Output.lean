import EvmRecorder.SourceMap.YulAlignment

/-!
# Reading the output of solc

In assembly mode solc prints its results as text, each behind a header: the bytecode
as one line of hex digits, the assembly as one line of JSON. What is read from the
text is exactly what was printed.
-/

namespace EvmRecorder

open Substrings Bytes

/-! ## §1  Texts -/

theorem utf8ErrorLoop_append (tail rest : List UInt8) : ∀ i,
    utf8ErrorLoop tail.length i (tail ++ rest) = utf8ErrorLoop 0 (i + tail.length) rest := by
  induction tail with
  | nil => exact fun _ => rfl
  | cons b tail ih =>
      intro i
      rw [List.cons_append, List.length_cons, utf8ErrorLoop, ih]
      congr 1
      omega

theorem utf8ErrorLoop_utf8 (chars : List Char) : ∀ i,
    utf8ErrorLoop 0 i (chars.flatMap String.utf8EncodeChar) = none := by
  induction chars with
  | nil => exact fun _ => rfl
  | cons c chars ih =>
      intro i
      obtain ⟨lead, tail, hbytes, hnext⟩ :=
        decodeNext_utf8EncodeChar c (chars.flatMap String.utf8EncodeChar)
      have hvalid : String.utf8EncodeChar c =
          (lead :: (tail ++ chars.flatMap String.utf8EncodeChar)).take (tail.length + 1) := by
        rw [hbytes, List.take_succ_cons, List.take_left]
      rw [List.flatMap_cons, hbytes, List.cons_append, utf8ErrorLoop, hnext]
      dsimp only
      rw [if_pos hvalid, Nat.add_sub_cancel, utf8ErrorLoop_append, ih]

/-- Printed texts are valid UTF-8. -/
theorem fromUtf8_utf8Bytes (text : String) : fromUtf8 (utf8Bytes text) = .ok text := by
  rw [fromUtf8, utf8Bytes, utf8ErrorLoop_utf8]
  exact congrArg Except.ok (fromUtf8Lossy_utf8 text)

/-- Neither end is white space. -/
structure Trimmed (cs : List Char) : Prop where
  front : ∀ c, cs.head? = some c → isWhiteSpace c = false
  back : ∀ c, cs.getLast? = some c → isWhiteSpace c = false

theorem Trimmed.trim_eq {cs : List Char} (h : Trimmed cs) : trim cs = cs := by
  have hdrop : ∀ {ds : List Char}, (∀ c, ds.head? = some c → isWhiteSpace c = false) →
      ds.dropWhile isWhiteSpace = ds := by
    intro ds hds
    cases ds with
    | nil => rfl
    | cons d ds => rw [List.dropWhile_cons_of_neg (by simp [hds d rfl])]
  rw [trim, hdrop h.front, hdrop (by rw [List.head?_reverse]; exact h.back), List.reverse_reverse]

/-- A line of the text. -/
theorem linesLoop_append {line : List Char} (hline : '\n' ∉ line) (hcr : '\r' ∉ line)
    (rest : List Char) : ∀ current, '\r' ∉ current →
      linesLoop current (line ++ '\n' :: rest) = (current.reverse ++ line) :: linesLoop [] rest := by
  induction line with
  | nil =>
      intro current hcurrent
      have hhead : ¬ current.head? = some '\r' := fun h => hcurrent (List.mem_of_mem_head? h)
      rw [List.nil_append, List.append_nil]
      cases current with
      | nil => rfl
      | cons c current => rw [linesLoop, if_pos rfl, if_neg hhead]
  | cons c line ih =>
      intro current hcurrent
      rw [List.mem_cons, not_or] at hline hcr
      have hnext := ih hline.2 hcr.2 (c :: current) (by
        rw [List.mem_cons, not_or]
        exact ⟨hcr.1, hcurrent⟩)
      rw [List.cons_append]
      cases current with
      | nil =>
          rw [linesLoop, if_neg (Ne.symm hline.1), hnext]
          rfl
      | cons d current =>
          rw [linesLoop, if_neg (Ne.symm hline.1), hnext, List.reverse_cons, List.append_assoc]
          rfl

/-! ## §2  What solc prints -/

/-- The digits of a bytecode. -/
def hexText (bytes : List UInt8) : String := String.ofList (hexBytes bytes)

/-- The output for one file; the preamble is its title and whatever stands before the
bytecode. -/
def solcText (preamble : String) (bytecode : List UInt8) (json : String) : String :=
  preamble ++ binaryMarker ++ "\n" ++ hexText bytecode ++ "\n\n" ++ assemblyMarker ++ "\n" ++
    json ++ "\n"

/-- Neither header stands in the preamble, there is some bytecode, and the JSON is one
line. -/
structure Printable (preamble : String) (bytecode : List UInt8) (json : String) : Prop where
  binary : ¬ binaryMarker.toList <:+: preamble.toList
  assembly : ¬ assemblyMarker.toList <:+: preamble.toList
  bytecode : bytecode ≠ []
  brace : json.toList.head? = some '\x7b'
  line : '\n' ∉ json.toList
  trimmed : Trimmed json.toList

section Printed

variable {preamble json : String} {bytecode : List UInt8}

theorem notMem_hexText {c : Char} (hc : ∀ d < 16, c ≠ Nat.digitChar d) :
    c ∉ (hexText bytecode).toList := by
  rw [hexText, String.toList_ofList]
  exact not_mem_hexBytes hc bytecode

theorem trimmed_hexText : Trimmed (hexText bytecode).toList := by
  have hdigit : ∀ c ∈ (hexText bytecode).toList, isWhiteSpace c = false := by
    intro c hc
    by_contra hspace
    have hdigits : ∀ d < 16, isWhiteSpace (Nat.digitChar d) = false := by decide
    refine notMem_hexText (fun d hd heq => hspace ?_) hc
    rw [heq, hdigits d hd]
  exact ⟨fun c hc => hdigit c (List.mem_of_mem_head? hc),
    fun c hc => hdigit c (List.mem_of_getLast? hc)⟩

theorem afterMarker_binary (h : Printable preamble bytecode json) :
    afterMarker binaryMarker (solcText preamble bytecode json) =
      .ok ("\n" ++ hexText bytecode ++ "\n\n" ++ assemblyMarker ++ "\n" ++ json ++ "\n").toList := by
  have hsplit : (solcText preamble bytecode json).toList = preamble.toList ++
      ("Binary representation".toList ++ [':'] ++
        ("\n" ++ hexText bytecode ++ "\n\n" ++ assemblyMarker ++ "\n" ++ json ++ "\n").toList) := by
    simp only [solcText, String.toList_append, List.append_assoc]
    rfl
  rw [afterMarker, hsplit, show binaryMarker.toList = "Binary representation".toList ++ [':'] from
    rfl, afterFirst_append (by decide) h.binary]
  rfl

/-- The other header does not stand before its place either. -/
theorem not_infix_assembly (h : Printable preamble bytecode json) :
    ¬ "EVM assembly".toList ++ [':'] <:+:
      preamble.toList ++ ("Binary representation".toList ++ [':']) ++
        ("\n" ++ hexText bytecode ++ "\n\n").toList := by
  intro hinfix
  have hcolon : ':' ∉ ("\n" ++ hexText bytecode ++ "\n\n").toList := by
    rw [String.toList_append, String.toList_append, List.mem_append, List.mem_append]
    rintro ((hc | hc) | hc)
    · exact absurd hc (by decide)
    · exact notMem_hexText (by decide) hc
    · exact absurd hc (by decide)
  have hfront := infix_of_infix_append hcolon hinfix
  rw [← List.append_assoc, List.infix_concat_iff] at hfront
  rcases hfront with hsuffix | hfront
  · -- the headers end differently
    obtain ⟨s, hs⟩ := hsuffix
    rw [← List.append_assoc] at hs
    have hlast := congrArg List.getLast? (List.append_inj_left' hs rfl)
    rw [List.getLast?_append_of_ne_nil _ (by decide), List.getLast?_append_of_ne_nil _ (by decide)]
      at hlast
    exact absurd hlast (by decide)
  · exact h.assembly (infix_of_infix_append (by decide) hfront)

theorem afterMarker_assembly (h : Printable preamble bytecode json) :
    afterMarker assemblyMarker (solcText preamble bytecode json) =
      .ok ("\n" ++ json ++ "\n").toList := by
  have hsplit : (solcText preamble bytecode json).toList =
      preamble.toList ++ ("Binary representation".toList ++ [':']) ++
        ("\n" ++ hexText bytecode ++ "\n\n").toList ++
      ("EVM assembly".toList ++ [':'] ++ ("\n" ++ json ++ "\n").toList) := by
    simp only [solcText, String.toList_append, List.append_assoc]
    rfl
  rw [afterMarker, hsplit, show assemblyMarker.toList = "EVM assembly".toList ++ [':'] from rfl,
    afterFirst_append (by decide) (not_infix_assembly h)]
  rfl

end Printed

/-! ## §3  What is read -/

section Reads

variable {host : YulHost} {preamble json : String} {bytecode : List UInt8}

theorem parseBinaryRepresentation_solcText (h : Printable preamble bytecode json)
    (hhex : host.hexDecode (hexText bytecode) = .ok bytecode) :
    parseBinaryRepresentation host (solcText preamble bytecode json) = .ok bytecode := by
  have hne : (hexText bytecode).toList.isEmpty = false := by
    obtain ⟨b, rest, hrest⟩ := List.exists_cons_of_ne_nil h.bytecode
    rw [hexText, String.toList_ofList, hrest, hexBytes, List.flatMap_cons]
    rfl
  have hlines : ∀ rest : String, ((linesLoop [] ("\n" ++ hexText bytecode ++ "\n" ++ rest).toList).map
      trim).find? (fun line => !line.isEmpty) = some (hexText bytecode).toList := by
    intro rest
    have hsplit : ("\n" ++ hexText bytecode ++ "\n" ++ rest).toList =
        [] ++ '\n' :: ((hexText bytecode).toList ++ '\n' :: rest.toList) := by
      simp only [String.toList_append, List.append_assoc]
      rfl
    rw [hsplit, linesLoop_append (by decide) (by decide) _ [] (by decide),
      linesLoop_append (notMem_hexText (by decide)) (notMem_hexText (by decide)) _ [] (by decide),
      List.map_cons, List.find?_cons_of_neg (by decide), List.map_cons, List.reverse_nil,
      List.nil_append, trimmed_hexText.trim_eq, List.find?_cons_of_pos (by rw [hne]; rfl)]
  have htext : ("\n" ++ hexText bytecode ++ "\n\n" ++ assemblyMarker ++ "\n" ++ json ++ "\n") =
      "\n" ++ hexText bytecode ++ "\n" ++ ("\n" ++ assemblyMarker ++ "\n" ++ json ++ "\n") := by
    rw [show "\n\n" = "\n" ++ "\n" from rfl]
    simp only [String.append_assoc]
  rw [parseBinaryRepresentation, afterMarker_binary h, htext]
  simp only [bind, Except.bind]
  rw [hlines]
  simp only [okOr]
  rw [String.ofList_toList, hhex]
  rfl

theorem extractAsmJson_solcText (h : Printable preamble bytecode json) :
    extractAsmJson (solcText preamble bytecode json) = .ok json := by
  obtain ⟨rest, hrest⟩ := List.head?_eq_some_iff.mp h.brace
  have hbrace : ("\n" ++ json ++ "\n").toList.dropWhile (fun c => c ≠ '\x7b') =
      json.toList ++ ['\n'] := by
    rw [String.toList_append, String.toList_append, hrest]
    rfl
  have hline : (json.toList ++ ['\n']).takeWhile (fun c => c ≠ '\n') = json.toList := by
    rw [List.takeWhile_append_of_pos]
    · simp
    · intro c hc
      rw [decide_eq_true_eq]
      rintro rfl
      exact h.line hc
  rw [extractAsmJson, afterMarker_assembly h]
  simp only [bind, Except.bind]
  rw [hbrace, if_neg (by simp), hline, h.trimmed.trim_eq, String.ofList_toList]

/-- **Round trip of solc's output.** When solc succeeds and prints a bytecode and an
assembly behind their headers, that bytecode is the deploy bytecode, and the runtime
source map has the entries of the instructions of the runtime object, in order and
without the labels. -/
theorem compileYul_solcText {solcCmd yulFile : String} {stderr : List UInt8}
    (h : Printable preamble bytecode json)
    (houtput : host.output solcCmd ["--strict-assembly", "--bin", "--asm-json", yulFile] =
      .ok ⟨true, utf8Bytes (solcText preamble bytecode json), stderr⟩)
    (hhex : host.hexDecode (hexText bytecode) = .ok bytecode) {asm : Value}
    (hjson : host.fromStr json = .ok asm) {code : List Value}
    (hcode : asm.pointer [".data", "0", ".code"] = some (.array code))
    {instructions : List AsmInstruction}
    (hinstructions : List.Forall₂ DescribesInstruction code instructions) :
    ∃ sourceMap, compileYul host solcCmd yulFile = .ok ⟨bytecode, sourceMap⟩ ∧
      List.Forall₂ EntryOf (emitting instructions) sourceMap.entries := by
  obtain ⟨entries, hentries, hall⟩ := synthesizeEntries_spec hinstructions
  refine ⟨⟨entries⟩, ?_, hall⟩
  rw [compileYul, houtput]
  simp only [bind, Except.bind, withContext, Except.mapError, if_true, fromUtf8_utf8Bytes,
    parseBinaryRepresentation_solcText h hhex, extractAsmJson_solcText h, hjson, hcode,
    Option.bind_some, Value.asArray, okOr, synthesizeSourceMap, hentries]
  rfl

end Reads

def labelsPreamble : String := "\n======= Labels.yul (EVM) =======\n\n"

def labelsJson : String :=
  "\x7b\".data\":\x7b\"0\":\x7b\".code\":[" ++
    "\x7b\"begin\":10,\"end\":20,\"name\":\"PUSH\",\"value\":\"1\"\x7d," ++
    "\x7b\"begin\":30,\"end\":40,\"name\":\"tag\",\"value\":\"1\"\x7d," ++
    "\x7b\"begin\":30,\"end\":40,\"name\":\"JUMPDEST\"\x7d," ++
    "\x7b\"begin\":60,\"end\":50,\"jumpType\":\"[in]\",\"name\":\"JUMP\"\x7d]\x7d\x7d\x7d"

def labelsAsm : Value :=
  .object [(".data", .object [("0", .object [(".code", .array asmValues)])])]

/-- A machine with a solc for this file. -/
def labelsHost : YulHost where
  output _ _ := .ok ⟨true, utf8Bytes (solcText labelsPreamble [0x60, 0x01] labelsJson), []⟩
  fromStr text := if text = labelsJson then .ok labelsAsm else .error "expected value"
  hexDecode text := okOr "invalid character" (unhex text.toList)

theorem printable_labels : Printable labelsPreamble [0x60, 0x01] labelsJson where
  binary := by decide +kernel
  assembly := by decide +kernel
  bytecode := List.cons_ne_nil _ _
  brace := by decide +kernel
  line := by decide +kernel
  trimmed := by
    have hfront : labelsJson.toList.head? = some '\x7b' := by decide +kernel
    have hback : labelsJson.toList.getLast? = some '\x7d' := by decide +kernel
    constructor
    · intro c hc
      rw [← Option.some.inj (hfront.symm.trans hc)]
      rfl
    · intro c hc
      rw [← Option.some.inj (hback.symm.trans hc)]
      rfl

theorem pointer_labelsAsm :
    labelsAsm.pointer [".data", "0", ".code"] = some (.array asmValues) := by
  simp [labelsAsm, Value.pointer, Value.get]

theorem compileYul_solcText_labels :
    ∃ sourceMap, compileYul labelsHost "solc" "Labels.yul" = .ok ⟨[0x60, 0x01], sourceMap⟩ ∧
      List.Forall₂ EntryOf (emitting asmInstructions) sourceMap.entries := by
  have hhex : labelsHost.hexDecode (hexText [0x60, 0x01]) = .ok [0x60, 0x01] := by decide +kernel
  have hjson : labelsHost.fromStr labelsJson = .ok labelsAsm := by
    simp only [labelsHost, if_true]
  exact compileYul_solcText printable_labels rfl hhex hjson pointer_labelsAsm describes_asmValues

end EvmRecorder
