import Diorama.Console
import Diorama.Proofs.Colours
import Mathlib.Data.List.Destutter

namespace Diorama

namespace Text

structure Neat (line : String) : Prop where
  filled : line ≠ ""
  first : ∀ c, line.toList.head? = some c → isBlank c = false
  last : ∀ c, line.toList.getLast? = some c → isBlank c = false

theorem neat_trim {s : String} (filled : trim s ≠ "") : Neat (trim s) := by
  have stripped := stripped_trimmed s.toList
  refine ⟨filled, ?_, ?_⟩
  · simpa only [trim, String.toList_ofList] using stripped.first
  · simpa only [trim, String.toList_ofList] using stripped.last

end Text

namespace Console

variable {c d : Console} {frame : Frame} {frames : List (Frame × Float)} {elapsed : Float} {back : Bool} {i : Nat}
  {line : String}

def Frame.pressed (frame : Frame) : Option Key := if frame.focused then frame.key else none

def after (c : Console) (frames : List (Frame × Float)) : Console :=
  frames.foldl (fun c f => (c.update f.1 f.2).2) c

def keys (frames : List (Frame × Float)) : List Key := frames.filterMap (·.1.pressed)

def command? (text : String) : Option String :=
  if Text.trim text = "" then none else some (Text.trim text)

-- The command that a frame sends. What is typed in the same frame comes first.
def sends? (frame : Frame) (c : Console) : Option String :=
  if frame.pressed = some .enter then command? (frame.typed.getD c.input) else none

def sent : List (Frame × Float) → Console → List String
  | [], _ => []
  | (frame, elapsed) :: rest, c => (c.sends? frame).toList ++ sent rest (c.update frame elapsed).2

-- Where a console stands in its history. Behind the newest entry nothing is browsed.
def place (c : Console) : Nat := c.browsing.getD c.history.length

def InRange (c : Console) : Prop := ∀ i, c.browsing = some i → i < c.history.length

-- The field shows the entry at this place, and nothing behind the newest one.
structure Shows (c : Console) (i : Nat) : Prop where
  entry : i < c.history.length → c.browsing = some i ∧ c.history[i]? = some c.input
  behind : c.history.length ≤ i → c.browsing = none ∧ c.input = ""

def travel (entries place : Nat) : Key → Nat
  | .up => place - 1
  | .down => min (place + 1) entries
  | .enter => entries

def arrow (back : Bool) : Key := if back then .up else .down

structure Prompt where
  input : String
  browsing : Option Nat
  history : List String

def prompt (c : Console) : Prompt := ⟨c.input, c.browsing, c.history⟩

theorem prompt_eq (same : c.prompt = d.prompt) :
    c.input = d.input ∧ c.browsing = d.browsing ∧ c.history = d.history := by
  simpa only [prompt, Prompt.mk.injEq] using same

theorem browsing_eq (c : Console) : c.browsing = c.prompt.browsing := rfl

theorem history_eq (c : Console) : c.history = c.prompt.history := rfl

theorem prompt_put {kind : LogKind} {text : String} : (c.put kind text).prompt = c.prompt := rfl

theorem prompt_drain : c.drain.prompt = c.prompt := rfl

theorem prompt_runScript {path : String} {found : Except ReadFault String} :
    (c.runScript path found).prompt = c.prompt := by
  cases found with
  | error fault => exact prompt_put
  | ok text =>
    unfold runScript
    dsimp only
    rw [prompt_drain]
    split
    · rfl
    · exact prompt_put

theorem prompt_start (settings : Settings) (folder : Folder) : (start settings folder).prompt = ⟨"", none, []⟩ := by
  unfold start
  split
  · exact prompt_runScript
  · rfl

def remembered (lines history : List String) : List String := lines.foldl (fun history line => remember line history) history

theorem prompt_submit : c.submit.prompt = ⟨"", none, remembered (command? c.input).toList c.history⟩ := by
  unfold submit command?
  dsimp only
  by_cases blank : Text.trim c.input = ""
  · simp [blank, prompt, remembered]
  · rw [if_neg (by simpa using blank), if_neg blank, prompt_drain]
    simp only [remembered, Option.toList_some, List.foldl_cons, List.foldl_nil]
    split
    · simp only [prompt, put]
    · simp only [prompt, put]

theorem browse_congr (same : c.prompt = d.prompt) : (c.browse back).prompt = (d.browse back).prompt := by
  obtain ⟨input, browsing, history⟩ := prompt_eq same
  unfold browse
  rw [history, browsing]
  split
  · exact same
  · simp only [prompt]

def typing (frame : Frame) (c : Console) : Console := { c with input := frame.typed.getD c.input }

theorem typing_congr (same : c.prompt = d.prompt) : (c.typing frame).prompt = (d.typing frame).prompt := by
  obtain ⟨input, browsing, history⟩ := prompt_eq same
  simp only [typing, prompt, input, browsing, history]

def pressing (frame : Frame) (c : Console) : Console :=
  match frame.pressed with
  | some .enter => c.submit
  | some .up => c.browse true
  | some .down => c.browse false
  | none => c

theorem press_eq : (c.press frame).2 = c.pressing frame := by
  unfold press pressing Frame.pressed
  cases frame.focused with
  | false => rfl
  | true =>
    cases frame.key with
    | none => rfl
    | some key => cases key <;> simp only [if_true]

theorem pressing_congr (same : c.prompt = d.prompt) : (c.pressing frame).prompt = (d.pressing frame).prompt := by
  unfold pressing
  split
  · obtain ⟨input, _, history⟩ := prompt_eq same
    rw [prompt_submit, prompt_submit, input, history]
  · exact browse_congr same
  · exact browse_congr same
  · exact same

theorem prompt_update : (c.update frame elapsed).2.prompt = ((c.typing frame).pressing frame).prompt := by
  let passed : Console := { c with session := c.session.tick (if elapsed < longestStep then elapsed else longestStep) }
  have same : (c.update frame elapsed).2 = (passed.drain.typing frame).pressing frame := press_eq
  have kept : (passed.drain.typing frame).prompt = (c.typing frame).prompt := typing_congr prompt_drain
  rw [same]
  exact pressing_congr kept

theorem history_browse : (c.browse back).history = c.history := by
  unfold browse
  split <;> rfl

theorem history_update : (c.update frame elapsed).2.history = remembered (c.sends? frame).toList c.history := by
  rw [history_eq, prompt_update, ← history_eq]
  unfold pressing sends?
  split
  · rename_i enters
    rw [if_pos enters, history_eq, prompt_submit]
    simp only [typing]
  · rename_i goes
    rw [if_neg (by simp [goes])]
    exact history_browse
  · rename_i goes
    rw [if_neg (by simp [goes])]
    exact history_browse
  · rename_i rests
    rw [if_neg (by simp [rests])]
    rfl

theorem history_after (c : Console) (frames : List (Frame × Float)) :
    (c.after frames).history = remembered (c.sent frames) c.history := by
  induction frames generalizing c with
  | nil => rfl
  | cons f rest ih =>
    have later := ih (c.update f.1 f.2).2
    rw [history_update] at later
    refine later.trans ?_
    simp only [sent, remembered, List.foldl_append]

theorem sends?_neat (sends : c.sends? frame = some line) : Text.Neat line := by
  unfold sends? command? at sends
  split at sends
  · split at sends
    · cases sends
    · rename_i filled
      rw [← Option.some.inj sends]
      exact Text.neat_trim filled
  · cases sends

theorem sent_neat (c : Console) (frames : List (Frame × Float)) : ∀ line ∈ c.sent frames, Text.Neat line := by
  induction frames generalizing c with
  | nil => exact List.forall_mem_nil _
  | cons f rest ih =>
    intro line member
    rcases List.mem_append.mp member with first | later
    · exact sends?_neat (Option.mem_toList.mp first)
    · exact ih _ line later

theorem remember_cons {history : List String} (filled : history ≠ []) (first : String) :
    remember line (first :: history) = first :: remember line history := by
  unfold remember
  rw [List.getLast?_cons, List.getLast?_eq_some_getLast filled, Option.getD_some]
  split <;> rfl

theorem destutter_concat (line last : String) (lines : List String) :
    (lines ++ [line]).destutter' (· ≠ ·) last = remember line (lines.destutter' (· ≠ ·) last) := by
  induction lines generalizing last with
  | nil => by_cases same : last = line <;> simp [remember, same]
  | cons next lines ih =>
    by_cases same : last = next
    · simpa [same] using ih next
    · rw [List.cons_append, List.destutter'_cons_pos _ same, List.destutter'_cons_pos _ same, ih,
        remember_cons (List.destutter'_ne_nil _ _)]

theorem remembered_eq (lines : List String) : remembered lines [] = lines.destutter (· ≠ ·) := by
  induction lines using List.reverseRecOn with
  | nil => rfl
  | append_singleton lines line ih =>
    have last : remembered (lines ++ [line]) [] = remember line (remembered lines []) := by
      simp only [remembered, List.foldl_append, List.foldl_cons, List.foldl_nil]
    rw [last, ih]
    cases lines with
    | nil => rfl
    | cons first lines => exact (destutter_concat line first lines).symm

theorem Shows.place (shows : c.Shows i) : c.place = min i c.history.length := by
  unfold Console.place
  by_cases inside : i < c.history.length
  · rw [(shows.entry inside).1, Option.getD_some]
    omega
  · rw [(shows.behind (by omega)).1, Option.getD_none]
    omega

theorem Shows.browsed {j : Nat} (shows : c.Shows i) (browsed : c.browsing = some j) :
    j < c.history.length ∧ c.history[j]? = some c.input := by
  by_cases inside : i < c.history.length
  · obtain ⟨here, entry⟩ := shows.entry inside
    cases here.symm.trans browsed
    exact ⟨inside, entry⟩
  · rw [(shows.behind (by omega)).1] at browsed
    cases browsed

theorem browseFrom_eq (back : Bool) (filled : c.history ≠ []) (inRange : c.InRange) :
    browseFrom (c.history.length - 1) c.browsing back =
      if travel c.history.length c.place (arrow back) < c.history.length then
        some (travel c.history.length c.place (arrow back)) else none := by
  have length := List.length_pos_iff.mpr filled
  unfold place
  cases browsed : c.browsing with
  | none =>
    cases back with
    | true =>
      have newest : c.history.length - 1 < c.history.length := by omega
      simp [browseFrom, travel, arrow, newest]
    | false => simp [browseFrom, travel, arrow]
  | some i =>
    have inside := inRange i browsed
    cases back with
    | true =>
      have older : i - 1 < c.history.length := by omega
      simp [browseFrom, travel, arrow, older]
    | false =>
      simp only [browseFrom, travel, arrow, Option.getD_some]
      by_cases last : i < c.history.length - 1
      · have newer : min (i + 1) c.history.length = i + 1 := by omega
        have upper : i + 1 < c.history.length := by omega
        simp [last, newer, upper]
      · have top : i + 1 = c.history.length := by omega
        simp [last, top]

theorem browse_shows (filled : c.history ≠ []) (inRange : c.InRange) :
    (c.browse back).Shows (travel c.history.length c.place (arrow back)) := by
  have moved := browseFrom_eq back filled inRange
  generalize travel c.history.length c.place (arrow back) = next at moved ⊢
  unfold browse
  rw [if_neg (by simpa using filled), moved]
  constructor
  · intro inside
    rw [if_pos inside]
    simp [inside]
  · intro outside
    rw [if_neg (Nat.not_lt.mpr outside)]
    exact ⟨rfl, rfl⟩

theorem inRange_of_rests (rests : c.browsing = none) : c.InRange := by
  intro i browsed
  rw [rests] at browsed
  cases browsed

theorem inRange_congr (same : c.prompt = d.prompt) : c.InRange ↔ d.InRange := by
  unfold InRange
  rw [browsing_eq, history_eq, same]
  rfl

theorem InRange.browse (inRange : c.InRange) (browsed : (c.browse back).browsing = some i) :
    i < c.history.length ∧ c.history[i]? = some (c.browse back).input := by
  -- a console with an empty history browses nothing, and with any other one the entry that is looked up is there
  by_cases empty : c.history = []
  · unfold Console.browse at browsed
    rw [if_pos (by simpa using empty)] at browsed
    have inside := inRange i browsed
    simp [empty] at inside
  · have found := (browse_shows empty inRange).browsed browsed
    rwa [history_browse] at found

theorem browsing_entered (enters : frame.pressed = some .enter) : (c.update frame elapsed).2.browsing = none := by
  rw [browsing_eq, prompt_update, pressing, enters, prompt_submit]

theorem InRange.pressing (inRange : c.InRange) : (c.pressing frame).InRange := by
  have browses (back : Bool) : (c.browse back).InRange := by
    intro i browsed
    rw [history_browse]
    exact (inRange.browse browsed).1
  unfold Console.pressing
  split
  · refine inRange_of_rests ?_
    rw [browsing_eq, prompt_submit]
  · exact browses true
  · exact browses false
  · exact inRange

theorem InRange.update (inRange : c.InRange) : (c.update frame elapsed).2.InRange := by
  have typed : (c.typing frame).InRange := inRange
  exact (inRange_congr prompt_update).mpr typed.pressing

theorem InRange.after (inRange : c.InRange) (frames : List (Frame × Float)) : (c.after frames).InRange := by
  induction frames generalizing c with
  | nil => exact inRange
  | cons f rest ih => exact ih inRange.update

theorem after_concat {f : Frame × Float} : c.after (frames ++ [f]) = ((c.after frames).update f.1 f.2).2 := by
  simp [after]

theorem keys_concat {f : Frame × Float} : keys (frames ++ [f]) = keys frames ++ f.1.pressed.toList := by
  unfold keys
  rw [List.filterMap_append, List.filterMap_cons]
  cases f.1.pressed <;> rfl

theorem Shows.congr (shows : c.Shows i) (same : d.prompt = c.prompt) : d.Shows i := by
  obtain ⟨input, browsing, history⟩ := prompt_eq same
  refine ⟨?_, ?_⟩
  · rw [input, browsing, history]
    exact shows.entry
  · rw [input, browsing, history]
    exact shows.behind

-- A frame that types at most where it presses a key.
def Frame.Plain (frame : Frame) : Prop :=
  frame.pressed ≠ some .enter ∧ (frame.pressed = none → frame.typed = none)

theorem travels_step (filled : c.history ≠ []) (inRange : c.InRange) (pressed : frame.pressed = some (arrow back)) :
    (c.update frame elapsed).2.Shows (travel c.history.length c.place (arrow back)) := by
  have typed : (c.typing frame).InRange := inRange
  have shows : ((c.typing frame).browse back).Shows (travel c.history.length c.place (arrow back)) :=
    browse_shows filled typed
  refine shows.congr (prompt_update.trans ?_)
  unfold pressing
  rw [pressed]
  cases back <;> rfl

theorem InRange.place_le (inRange : c.InRange) : c.place ≤ c.history.length := by
  unfold place
  cases browsed : c.browsing with
  | none => exact Nat.le_refl _
  | some i => exact Nat.le_of_lt (inRange i browsed)

theorem travel_le {entries place : Nat} (key : Key) (inside : place ≤ entries) : travel entries place key ≤ entries := by
  cases key <;> simp only [travel] <;> omega

theorem rests_step (rests : frame.pressed = none) (untyped : frame.typed = none) :
    (c.update frame elapsed).2.prompt = c.prompt := by
  rw [prompt_update]
  unfold pressing typing
  rw [rests, untyped]
  rfl

theorem after_travels (filled : c.history ≠ []) (inRange : c.InRange) (plain : ∀ f ∈ frames, f.1.Plain) :
    (c.after frames).history = c.history ∧
    (c.after frames).place = (keys frames).foldl (travel c.history.length) c.place ∧
    (keys frames ≠ [] → (c.after frames).Shows ((keys frames).foldl (travel c.history.length) c.place)) := by
  induction frames using List.reverseRecOn with
  | nil => exact ⟨rfl, rfl, fun pressed => absurd rfl pressed⟩
  | append_singleton frames f ih =>
    obtain ⟨history, place, shows⟩ := ih fun f member => plain f (by simp [member])
    obtain ⟨unsent, quiet⟩ := plain f (by simp)
    rw [after_concat, keys_concat]
    cases pressed : f.1.pressed with
    | none =>
      have same : ((c.after frames).update f.1 f.2).2.prompt = (c.after frames).prompt :=
        rests_step pressed (quiet pressed)
      rw [Option.toList_none, List.append_nil]
      refine ⟨(congrArg Prompt.history same).trans history, ?_, fun pressed => (shows pressed).congr same⟩
      rw [← place]
      exact congrArg (fun p : Prompt => p.browsing.getD p.history.length) same
    | some key =>
      obtain ⟨back, rfl⟩ : ∃ back, key = arrow back := by
        cases key with
        | enter => exact absurd pressed unsent
        | up => exact ⟨true, rfl⟩
        | down => exact ⟨false, rfl⟩
      have kept : ((c.after frames).update f.1 f.2).2.history = c.history := by
        rw [history_update, sends?, if_neg unsent]
        exact history
      have moved : ((c.after frames).update f.1 f.2).2.Shows (travel c.history.length (c.after frames).place (arrow back)) := by
        rw [← history]
        exact travels_step (by rwa [history]) (inRange.after frames) pressed
      have inside : (c.after frames).place ≤ c.history.length := by
        rw [← history]
        exact (inRange.after frames).place_le
      rw [List.foldl_append, ← place]
      refine ⟨kept, ?_, fun _ => moved⟩
      rw [moved.place, kept]
      exact Nat.min_eq_left (travel_le (arrow back) inside)

theorem travel_up (entries place : Nat) (k : Nat) :
    (List.replicate k Key.up).foldl (travel entries) place = place - k := by
  induction k generalizing place with
  | zero => rfl
  | succ k ih =>
    rw [List.replicate_succ, List.foldl_cons, ih]
    simp only [travel]
    omega

theorem travel_down {entries place : Nat} (inside : place ≤ entries) (k : Nat) :
    (List.replicate k Key.down).foldl (travel entries) place = min (place + k) entries := by
  induction k generalizing place with
  | zero =>
    simp only [List.replicate_zero, List.foldl_nil]
    omega
  | succ k ih =>
    rw [List.replicate_succ, List.foldl_cons, ih (travel_le .down inside)]
    simp only [travel]
    omega

theorem Shows.of_min (shows : c.Shows (min i c.history.length)) : c.Shows i := by
  refine ⟨?_, ?_⟩
  · intro inside
    rw [Nat.min_eq_left (Nat.le_of_lt inside)] at shows
    exact shows.entry inside
  · intro outside
    rw [Nat.min_eq_right outside] at shows
    exact shows.behind (Nat.le_refl _)

theorem after_back_and_forth {k j : Nat} (filled : c.history ≠ []) (rests : c.browsing = none) (backs : 1 ≤ k)
    (pressed : keys frames = List.replicate k .up ++ List.replicate j .down)
    (untyped : ∀ f ∈ frames, f.1.pressed = none → f.1.typed = none) :
    (c.after frames).history = c.history ∧ (c.after frames).Shows (c.history.length - k + j) := by
  have plain : ∀ f ∈ frames, f.1.Plain := by
    intro f member
    refine ⟨?_, untyped f member⟩
    intro enters
    have sends : Key.enter ∈ keys frames := List.mem_filterMap.mpr ⟨f, member, enters⟩
    simp [pressed] at sends
  obtain ⟨history, _, shows⟩ := after_travels filled (inRange_of_rests rests) plain
  have moves : keys frames ≠ [] := by
    intro none
    have length := congrArg List.length (pressed.symm.trans none)
    simp only [List.length_append, List.length_replicate, List.length_nil] at length
    omega
  have arrived := shows moves
  have start : c.place = c.history.length := by
    unfold place
    rw [rests]
    rfl
  rw [pressed, List.foldl_append, travel_up, start, travel_down (Nat.sub_le _ _), ← history] at arrived
  refine ⟨history, ?_⟩
  rw [← history]
  exact arrived.of_min

theorem history_exact (settings : Settings) (folder : Folder) (frames : List (Frame × Float)) :
    let c := (start settings folder).after frames
    c.history = ((start settings folder).sent frames).destutter (· ≠ ·) ∧
    (∀ line ∈ c.history, Text.Neat line) ∧ c.history.IsChain (· ≠ ·) ∧
    c.InRange ∧ (∀ back i, (c.browse back).browsing = some i → c.history[i]? = some (c.browse back).input) ∧
    (c.history ≠ [] → c.browsing = none → ∀ later k j, 1 ≤ k →
      keys later = List.replicate k .up ++ List.replicate j .down →
      (∀ f ∈ later, f.1.pressed = none → f.1.typed = none) →
      (c.after later).history = c.history ∧ (c.after later).Shows (c.history.length - k + j)) := by
  intro c
  have lines : c.history = ((start settings folder).sent frames).destutter (· ≠ ·) := by
    rw [history_after, history_eq, prompt_start, remembered_eq]
  have inRange : c.InRange := by
    refine InRange.after (inRange_of_rests ?_) frames
    rw [browsing_eq, prompt_start]
  refine ⟨lines, ?_, ?_, inRange, ?_, ?_⟩
  · intro line member
    rw [lines] at member
    exact sent_neat _ frames line ((List.destutter_sublist _ _).subset member)
  · rw [lines]
    exact List.isChain_destutter _ _
  · intro back i browsed
    exact (inRange.browse browsed).2
  · intro filled rests later k j backs pressed untyped
    exact after_back_and_forth filled rests backs pressed untyped

def Sample.enters (text : String) : Frame × Float := (⟨some text, some .enter, true⟩, 0.01)

def Sample.typist : List (Frame × Float) := [enters " 1 dup", enters "1 dup ", enters "   ", enters "2 3"]

def Sample.presses (key : Option Key) : Frame × Float := (⟨none, key, true⟩, 0.01)

def Sample.browser : List (Frame × Float) :=
  [presses (some .up), presses none, presses (some .up), presses (some .up), presses (some .down)]

theorem history_exact_typist :
    let c := (start .standard .empty).after Sample.typist
    c.history = ["1 dup", "2 3"] ∧ c.browsing = none ∧
    (c.after Sample.browser).history = c.history ∧ (c.after Sample.browser).Shows (c.history.length - 3 + 1) := by
  intro c
  obtain ⟨lines, _, _, _, _, shows⟩ := history_exact .standard .empty Sample.typist
  have history : c.history = ["1 dup", "2 3"] := by
    refine lines.trans ?_
    decide +kernel
  have rests : c.browsing = none := by
    have last : Sample.typist = Sample.typist.take 3 ++ [Sample.enters "2 3"] := rfl
    unfold c
    rw [last, after_concat]
    exact browsing_entered rfl
  refine ⟨history, rests, shows ?_ rests Sample.browser 3 1 (by decide) (by decide) (by decide)⟩
  rw [history]
  decide

end Console
end Diorama
