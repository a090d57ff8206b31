import Diorama.Proofs.Bytes
import Diorama.Proofs.Grammar
import Diorama.Session.Text

namespace Diorama

namespace Text

theorem bytes_newline {s : String} (member : 0x0a ∈ bytes s) : '\n' ∈ s.toList := by
  rw [bytes_eq] at member
  exact mem_of_mem_encoded (by decide) member

theorem dropReturn_subset (line : List Char) : dropReturn line ⊆ line := by
  unfold dropReturn
  split <;> simp

theorem linesFrom_plain {line cs found : List Char} (plain : '\n' ∉ line) (member : found ∈ linesFrom line cs) :
    '\n' ∉ found := by
  fun_induction linesFrom line cs with
  | case1 line => cases member
  | case2 line filled =>
    rw [List.mem_singleton.mp member, List.mem_reverse]
    exact plain
  | case3 line cs ih =>
    rcases List.mem_cons.mp member with rfl | later
    · exact fun inside => plain (dropReturn_subset line (List.mem_reverse.mp inside))
    · exact ih (by simp) later
  | case4 line c cs other ih => exact ih (by simp [plain, Ne.symm other]) member

theorem lines_plain {s line : String} (member : line ∈ lines s) : '\n' ∉ line.toList := by
  obtain ⟨found, among, rfl⟩ := List.mem_map.mp member
  rw [String.toList_ofList]
  exact linesFrom_plain (by simp) among

end Text

namespace Position

def onLine (n : Nat) (p : Position) : Position := { p with line := n }

variable {f : Position → Position} {bs : List UInt8}

-- Moving a place commutes with the steps over all bytes of a text.
def Commutes (f : Position → Position) (bs : List UInt8) : Prop := ∀ b ∈ bs, ∀ p, (f p).step b = f (p.step b)

theorem Commutes.after (commutes : Commutes f bs) (p : Position) : (f p).after bs = f (p.after bs) := by
  induction bs generalizing p with
  | nil => rfl
  | cons b bs ih =>
    have first := commutes b (by simp) p
    have later := ih (fun b' member => commutes b' (by simp [member])) (p.step b)
    simpa only [Position.after, List.foldl_cons, first] using later

theorem onLine_commutes (n : Nat) (plain : 0x0a ∉ bs) : Commutes (onLine n) bs := by
  intro b member p
  have other : b ≠ 0x0a := fun same => plain (same ▸ member)
  simp [step, onLine, other]

end Position

def Mistake.relocate (f : Position → Position) (m : Mistake) : Mistake := { m with position := f m.position }

def Token.relocate (f : Position → Position) (t : Token) : Token := { t with position := f t.position }

section Relocation

variable {α β : Type} {f : Position → Position}

def relocated (f : Position → Position) (result : Except Mistake α) : Except Mistake α :=
  result.mapError (Mistake.relocate f)

theorem relocated_bind (result : Except Mistake α) (next next' : α → Except Mistake β)
    (same : ∀ a, next' a = relocated f (next a)) : relocated f result >>= next' = relocated f (result >>= next) := by
  cases result with
  | error m => rfl
  | ok a => exact same a

end Relocation

namespace Token

variable {f : Position → Position}

def Entry.relocate (f : Position → Position) (entry : Entry) : Entry := relocated f (entry.map (Token.relocate f))

theorem entries_relocate {bs : List UInt8} (commutes : Position.Commutes f bs) (p : Position) :
    entries (f p) bs = (entries p bs).map (Entry.relocate f) := by
  fun_induction entries p bs with
  | case1 p => simp only [entries]; rfl
  | case2 p b bs blank ih =>
    have first := commutes b (by simp) p
    have later := ih fun b' member => commutes b' (by simp [member])
    rw [entries, if_pos blank, first, later]
  | case3 p b bs solid found taken ih =>
    have within : taken ⊆ b :: bs := by
      intro b' member
      rcases List.mem_cons.mp member with rfl | inside
      · simp
      · simp [List.mem_of_mem_take inside]
    have rest : found.2 ⊆ bs := (item_suffix b bs).subset
    have moved := Position.Commutes.after (fun b' member => commutes b' (within member)) p
    have later := ih fun b' member => commutes b' (by simp [rest member])
    rw [entries, if_neg solid]
    simp only [List.map_append]
    rw [← later, ← moved]
    congr 1
    show (found.1.entry taken (f p)).toList = _
    cases found.1 <;> rfl

theorem mapM_relocate (row : List Entry) :
    (row.map (Entry.relocate f)).mapM id = relocated f ((row.mapM id).map (List.map (Token.relocate f))) := by
  induction row with
  | nil => rfl
  | cons entry row ih =>
    cases entry with
    | error m => rfl
    | ok t =>
      rw [List.map_cons, List.mapM_cons, List.mapM_cons, ih]
      cases row.mapM id <;> rfl

end Token

namespace Command

variable {f : Position → Position}

theorem name_relocate (t : Token) : (t.relocate f).name = t.name := rfl

theorem number_relocate (t : Token) : (t.relocate f).number = relocated f t.number := by
  obtain ⟨kind, lexeme, position⟩ := t
  cases kind <;> rfl

theorem numberValues_relocate (ts : List Token) :
    numberValues (ts.map (Token.relocate f)) = relocated f (numberValues ts) := by
  induction ts with
  | nil => rfl
  | cons t ts ih =>
    rw [List.map_cons, numberValues_cons, numberValues_cons, number_relocate]
    refine relocated_bind _ _ _ fun x => ?_
    rw [ih]
    exact relocated_bind _ _ _ fun values => rfl

theorem wrongCount_relocate (args : List Token) (finish : Token) (usage : String) :
    wrongCount (args.map (Token.relocate f)) (finish.relocate f) usage = (wrongCount args finish usage).relocate f := by
  unfold wrongCount
  rw [List.length_map, List.getLast?_map]
  cases args.getLast? <;> rfl

theorem refused_relocate (args : List Token) (finish : Token) (usage : String) :
    (.error (wrongCount (args.map (Token.relocate f)) (finish.relocate f) usage) : Except Mistake Program) =
      relocated f (.error (wrongCount args finish usage)) :=
  congrArg Except.error (wrongCount_relocate args finish usage)

theorem numbered_relocate (ts : List Token) (tail : Program) :
    (do pure ((← numberValues (ts.map (Token.relocate f))) ++ tail)) =
      relocated f (do pure ((← numberValues ts) ++ tail)) := by
  rw [numberValues_relocate]
  exact relocated_bind _ _ _ fun values => rfl

theorem circle_relocate (id cx cy r : Token) (fill : Option Token) :
    (do pure (addition (id.relocate f) (.circle (← (cx.relocate f).number) (← (cy.relocate f).number)
      (← (r.relocate f).number)) (fill.map (Token.relocate f)))) =
    relocated f (do pure (addition id (.circle (← cx.number) (← cy.number) (← r.number)) fill)) := by
  simp only [number_relocate]
  refine relocated_bind _ _ _ fun a => relocated_bind _ _ _ fun b => relocated_bind _ _ _ fun c => ?_
  cases fill <;> rfl

theorem rect_relocate (id x y width height : Token) (fill : Option Token) :
    (do pure (addition (id.relocate f) (.rect (← (x.relocate f).number) (← (y.relocate f).number)
      (← (width.relocate f).number) (← (height.relocate f).number)) (fill.map (Token.relocate f)))) =
    relocated f (do
      pure (addition id (.rect (← x.number) (← y.number) (← width.number) (← height.number)) fill)) := by
  simp only [number_relocate]
  refine relocated_bind _ _ _ fun a => relocated_bind _ _ _ fun b => relocated_bind _ _ _ fun c =>
    relocated_bind _ _ _ fun d => ?_
  cases fill <;> rfl

theorem encode_relocate (verb : Verb) (args : List Token) (finish : Token) :
    encode verb (args.map (Token.relocate f)) (finish.relocate f) = relocated f (encode verb args finish) := by
  have refused (usage : String) := refused_relocate (f := f) args finish usage
  cases verb with
  | add =>
    cases args with
    | nil => exact refused _
    | cons kindToken rest =>
      simp only [encode, List.map_cons, name_relocate]
      cases Kind.ofName? kindToken.name with
      | none => rfl
      | some kind =>
        cases kind with
        | circle =>
          rcases rest with _ | ⟨id, _ | ⟨cx, _ | ⟨cy, _ | ⟨r, _ | ⟨fill, _ | _⟩⟩⟩⟩⟩
          case cons.cons.cons.cons.nil => exact circle_relocate id cx cy r none
          case cons.cons.cons.cons.cons.nil => exact circle_relocate id cx cy r (some fill)
          all_goals exact refused _
        | rect =>
          rcases rest with _ | ⟨id, _ | ⟨x, _ | ⟨y, _ | ⟨width, _ | ⟨height, _ | ⟨fill, _ | _⟩⟩⟩⟩⟩⟩
          case cons.cons.cons.cons.cons.nil => exact rect_relocate id x y width height none
          case cons.cons.cons.cons.cons.cons.nil => exact rect_relocate id x y width height (some fill)
          all_goals exact refused _
  | remove | stop =>
    rcases args with _ | ⟨id, _ | _⟩
    case cons.nil => rfl
    all_goals exact refused _
  | pin | move =>
    rcases args with _ | ⟨id, _ | ⟨x, _ | ⟨y, _ | _⟩⟩⟩
    case cons.cons.cons.nil => exact numbered_relocate [y, x] _
    all_goals exact refused _
  | rotate =>
    rcases args with _ | ⟨id, _ | ⟨angle, _ | ⟨rate, _ | _⟩⟩⟩
    case cons.cons.nil => exact numbered_relocate [angle] _
    case cons.cons.cons.nil => exact numbered_relocate [rate, angle] _
    all_goals exact refused _
  | modify =>
    rcases args with _ | ⟨id, _ | ⟨t, _ | ⟨u, _ | ⟨v, _ | ⟨w, _ | _⟩⟩⟩⟩⟩
    case cons.cons.cons.cons.nil => exact numbered_relocate [v, u, t] _
    case cons.cons.cons.cons.cons.nil => exact numbered_relocate [w, v, u, t] _
    all_goals exact refused _
  | bind =>
    rcases args with _ | ⟨parent, _ | ⟨child, _ | ⟨x, _ | ⟨y, _ | _⟩⟩⟩⟩
    case cons.cons.cons.cons.nil => exact numbered_relocate [y, x] _
    all_goals exact refused _
  | display =>
    cases args with
    | nil => exact refused _
    | cons t ts =>
      have lexemes : ((t :: ts).map (Token.relocate f)).map Token.lexeme = (t :: ts).map Token.lexeme := by
        rw [List.map_map]
        rfl
      exact congrArg (fun words => Except.ok [Value.string (" ".intercalate words), Value.word "show"]) lexemes

theorem ofTokens_relocate (row : List Token) (finish : Token) :
    ofTokens (row.map (Token.relocate f)) (finish.relocate f) = relocated f (ofTokens row finish) := by
  cases row with
  | nil => rfl
  | cons head args =>
    by_cases verbal : ∃ verb : Verb, head.kind = .word verb.word
    · obtain ⟨verb, word⟩ := verbal
      have word' : (head.relocate f).kind = .word verb.word := word
      rw [List.map_cons, ofTokens_verb word, ofTokens_verb word']
      exact encode_relocate verb args finish
    · have other : ∀ verb : Verb, head.kind ≠ .word verb.word := fun verb word => verbal ⟨verb, word⟩
      have other' : ∀ verb : Verb, (head.relocate f).kind ≠ .word verb.word := other
      rw [List.map_cons, ofTokens_raw other, ofTokens_raw other', ← List.map_cons, List.filterMap_map]
      rfl

end Command

theorem scan_relocate {line : String} (plain : '\n' ∉ line.toList) (n : Nat) :
    Token.scan n line = (Token.scan 1 line).map (Token.Entry.relocate (Position.onLine n)) := by
  have commutes := Position.onLine_commutes n fun member => plain (Text.bytes_newline member)
  exact Token.entries_relocate commutes ⟨1, 1⟩

theorem parseLine_relocate {line : String} (plain : '\n' ∉ line.toList) (n : Nat) :
    parseLine n line = relocated (Position.onLine n) (parseLine 1 line) := by
  unfold parseLine
  rw [scan_relocate plain n, Token.mapM_relocate]
  cases (Token.scan 1 line).mapM id with
  | error m => rfl
  | ok tokens =>
    simp only [Except.map, relocated, Except.mapError, bind, Except.bind, List.getLast?_map]
    cases tokens.getLast? with
    | none => rfl
    | some finish =>
      have moved := Command.ofTokens_relocate (f := Position.onLine n) tokens.dropLast finish
      rw [List.map_dropLast] at moved
      exact moved

def Command.Parses (line : String) : Prop := ∃ program, parseLine 1 line = .ok program

-- The line of the first mistake: all lines before it parse, and it does not.
structure Command.FirstMistake (lines before : List String) (line : String) (m : Mistake) : Prop where
  parses : ∀ earlier ∈ before, Parses earlier
  mistaken : parseLine 1 line = .error m
  among : before ++ [line] <+: lines

section Scripts

variable {lines : List String}

def numbered (n : Nat) (lines : List String) : List (Except Mistake Program) :=
  (lines.zipIdx n).map fun entry => parseLine entry.2 entry.1

theorem collect_numbered (plain : ∀ line ∈ lines, '\n' ∉ line.toList) (n : Nat) :
    (∃ programs, lines.map (parseLine 1) = programs.map .ok ∧ collect (numbered n lines) = .ok programs) ∨
    ∃ before line m others, Command.FirstMistake lines before line m ∧
      collect (numbered n lines) = .error (m.relocate (Position.onLine (n + before.length)) :: others) := by
  induction lines generalizing n with
  | nil => exact .inl ⟨[], rfl, rfl⟩
  | cons line lines ih =>
    have split : numbered n (line :: lines) = parseLine n line :: numbered (n + 1) lines := rfl
    rw [split, parseLine_relocate (plain line (by simp)) n]
    cases parsed : parseLine 1 line with
    | error m => exact .inr ⟨[], line, m, _, ⟨by simp, parsed, by simp⟩, rfl⟩
    | ok program =>
      rw [show relocated (Position.onLine n) (.ok program) = .ok program from rfl, collect_ok_cons]
      rcases ih (fun later member => plain later (by simp [member])) (n + 1) with all | first
      · obtain ⟨programs, parses, collected⟩ := all
        refine .inl ⟨program :: programs, ?_, by rw [collected]; rfl⟩
        rw [List.map_cons, parsed, parses, List.map_cons]
      · obtain ⟨before, wrong, m, others, ⟨parses, mistaken, among⟩, collected⟩ := first
        refine .inr ⟨line :: before, wrong, m, others, ⟨?_, mistaken, by simpa using among⟩, ?_⟩
        · intro earlier member
          rcases List.mem_cons.mp member with rfl | inside
          · exact ⟨program, parsed⟩
          · exact parses earlier inside
        · rw [collected, List.length_cons, show n + (before.length + 1) = n + 1 + before.length by omega]
          rfl

theorem parseScript_cases (text : String) :
    (∃ programs : List Program, (Text.lines text).map (parseLine 1) = programs.map .ok ∧
      parseScript text = .ok (programs.filter (!·.isEmpty))) ∨
    ∃ before line m others, Command.FirstMistake (Text.lines text) before line m ∧
      parseScript text = .error (m.relocate (Position.onLine (before.length + 1)) :: others) := by
  have unfolded : parseScript text =
      collect (numbered 1 (Text.lines text)) >>= fun programs => pure (programs.filter (!·.isEmpty)) := rfl
  rw [unfolded]
  rcases collect_numbered (fun line member => Text.lines_plain member) 1 with all | first
  · obtain ⟨programs, parses, collected⟩ := all
    exact .inl ⟨programs, parses, by rw [collected]; rfl⟩
  · obtain ⟨before, line, m, others, first, collected⟩ := first
    refine .inr ⟨before, line, m, others, first, ?_⟩
    rw [collected, Nat.add_comm]
    rfl

end Scripts

namespace Session

variable {σ : Type} [Surface σ]

def execLines : List String → Session σ → Except Failure Unit × Session σ
  | [], s => (.ok (), s)
  | line :: rest, s =>
    match s.execLine line with
    | (.ok _, s) => execLines rest s
    | (.error e, s) => (.error e, s)

theorem execAll_filter (programs : List Program) (s : Session σ) :
    s.execAll (programs.filter (!·.isEmpty)) = s.execAll programs := by
  -- an empty program leaves everything as it is
  induction programs generalizing s with
  | nil => rfl
  | cons program programs ih =>
    cases program with
    | nil => exact ih s
    | cons instruction rest =>
      rw [List.filter_cons_of_pos (by rfl)]
      simp only [execAll]
      cases s.exec (instruction :: rest) with
      | mk result s' =>
        cases result with
        | error e => rfl
        | ok stack => exact ih s'

theorem execLines_eq {lines : List String} {programs : List Program}
    (parses : lines.map (parseLine 1) = programs.map .ok) (s : Session σ) :
    s.execLines lines = ((s.execAll programs).1.mapError .fault, (s.execAll programs).2) := by
  induction lines generalizing programs s with
  | nil =>
    cases programs with
    | nil => rfl
    | cons program programs => cases parses
  | cons line lines ih =>
    cases programs with
    | nil => cases parses
    | cons program programs =>
      obtain ⟨parsed, later⟩ := List.cons.inj parses
      simp only [execLines, execLine, parsed, execAll]
      cases s.exec program with
      | mk result s' =>
        cases result with
        | error e => rfl
        | ok stack => exact ih later s'

-- Either every line parses, or there is a first line that does not. That line on its own has the same mistake,
-- only that it counts as line one there.
theorem execScript_agrees (text : String) (s : Session σ) :
    ((∀ line ∈ Text.lines text, Command.Parses line) ∧ s.execScript text = s.execLines (Text.lines text)) ∨
    ∃ before line m, Command.FirstMistake (Text.lines text) before line m ∧
      s.execLine line = (.error (.mistake m), s) ∧
      s.execScript text = (.error (.mistake (m.relocate (Position.onLine (before.length + 1)))), s) := by
  rcases parseScript_cases text with all | first
  · obtain ⟨programs, parses, script⟩ := all
    refine .inl ⟨?_, ?_⟩
    · intro line member
      have parsed : parseLine 1 line ∈ programs.map .ok := parses ▸ List.mem_map_of_mem member
      obtain ⟨program, _, same⟩ := List.mem_map.mp parsed
      exact ⟨program, same.symm⟩
    · rw [execLines_eq parses, ← execAll_filter]
      simp only [execScript, script]
  · obtain ⟨before, line, m, others, first, script⟩ := first
    refine .inr ⟨before, line, m, first, ?_, ?_⟩
    · simp only [execLine, first.mistaken]
    · simp only [execScript, script]

end Session
end Diorama
