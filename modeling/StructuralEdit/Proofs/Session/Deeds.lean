import StructuralEdit.Proofs.Session.Steps
import StructuralEdit.Session.Edit

/-! # What the parts of a command are made of

Looking up an address or a pattern changes nothing but what is remembered. All other parts
of a command make steps of some of the kinds there are, and follow each relation that these
steps follow.
-/
namespace StructuralEdit.Run
open Session
variable {R : Session → Session → Prop}

/-! ## Addresses -/

section
variable [Quiet R]

theorem follows_dotOf (h : Handle) : (dotOf h).Follows R :=
  follows_bind (follows_buffer h) fun _ => follows_pure _

theorem follows_wholeOf (h : Handle) : (wholeOf h).Follows R :=
  follows_bind (follows_buffer h) fun _ => follows_pure _

theorem follows_lineAddress (n : Int) (a : Target) (sign : Int) : (lineAddress n a sign).Follows R := by
  refine follows_bind (follows_buffer _) fun b => ?_
  split
  · exact follows_pure _
  · exact follows_fail _
  · exact follows_throw _

theorem follows_charAddress (n : Int) (a : Target) (sign : Int) : (charAddress n a sign).Follows R := by
  refine follows_bind (follows_buffer _) fun b => ?_
  split
  · exact follows_pure _
  · exact follows_fail _

theorem follows_nextMatch (h : Handle) (pattern : Text) (p sign : Int) :
    (nextMatch h pattern p sign).Follows R := by
  refine follows_bind (follows_compile _ _) fun re => ?_
  refine follows_bind follows_get fun s => ?_
  refine follows_bind (follows_buffer h) fun b => ?_
  refine follows_bind (follows_searching _) fun found => ?_
  split
  · exact follows_pure _
  · exact follows_fail _

theorem follows_fileMatches (h : Handle) (pattern : Text) : (fileMatches h pattern).Follows R := by
  refine follows_bind (follows_compile _ _) fun re => ?_
  refine follows_bind follows_get fun s => ?_
  exact follows_bind (follows_searching _) fun _ => follows_pure _

theorem follows_matchFileFrom (pattern : Text) (found : Option Handle) (hs : List Handle) :
    (matchFileFrom pattern found hs).Follows R := by
  induction hs generalizing found with
  | nil =>
    unfold matchFileFrom
    split
    · exact follows_pure _
    · exact follows_fail _
  | cons h rest ih =>
    unfold matchFileFrom
    refine follows_bind (follows_fileMatches h pattern) fun matched => follows_ite ?_ (ih found)
    exact follows_when (follows_fail _) fun _ => ih (some h)

theorem follows_matchFile (pattern : Text) : (matchFile pattern).Follows R :=
  follows_bind follows_get fun _ => follows_matchFileFrom _ _ _

theorem follows_step (s : Step) (rest : Chain) (a : Target) (sign : Int) :
    (step s rest a sign).Follows R := by
  cases s with
  | file re =>
    refine follows_bind (follows_matchFile re) fun h => ?_
    exact follows_bind (follows_dotOf h) fun _ => follows_pure _
  | mark => exact follows_fail _
  | other => exact follows_fail _
  | line n => exact follows_bind (follows_lineAddress n a sign) fun _ => follows_pure _
  | char n => exact follows_bind (follows_charAddress n a sign) fun _ => follows_pure _
  | dot => exact follows_bind (follows_dotOf a.buffer) fun _ => follows_pure _
  | last => exact follows_bind (follows_buffer a.buffer) fun _ => follows_pure _
  | forward re => exact follows_bind (follows_nextMatch _ _ _ _) fun _ => follows_pure _
  | backward re => exact follows_bind (follows_nextMatch _ _ _ _) fun _ => follows_pure _
  | plus =>
    refine follows_ite ?_ (follows_bind (follows_pure _) fun _ => follows_pure _)
    exact follows_bind (follows_lineAddress _ _ _) fun _ => follows_pure _
  | minus =>
    refine follows_ite ?_ (follows_bind (follows_pure _) fun _ => follows_pure _)
    exact follows_bind (follows_lineAddress _ _ _) fun _ => follows_pure _

theorem follows_resolveChain (chain : Chain) (a : Target) (sign : Int) :
    (resolveChain chain a sign).Follows R := by
  induction chain generalizing a sign with
  | nil => exact follows_pure a
  | cons s rest ih => exact follows_bind (follows_step s rest a sign) fun _ => ih _ _

theorem follows_join (a b : Target) : (join a b).Follows R := by
  unfold join
  refine follows_when (follows_fail _) fun _ => ?_
  exact follows_when (follows_fail _) fun _ => follows_pure _

theorem follows_resolveLeft (left : Option Chain) (a : Target) : (resolveLeft left a).Follows R := by
  cases left with
  | none => exact follows_pure _
  | some chain => exact follows_resolveChain chain _ _

theorem follows_homeOf (h : Option Handle) : (homeOf h).Follows R := by
  cases h with
  | none => exact follows_throw _
  | some h => exact follows_pure _

end

section
variable [Dots R]

theorem follows_startRight (sep : Separator) (a left : Target) :
    (startRight sep a left).Follows R := by
  cases sep with
  | comma => exact follows_pure _
  | semicolon => exact follows_bind (follows_setDot _ _) fun _ => follows_pure _

theorem follows_resolve (addr : Addr) (a : Target) (sign : Int) :
    (resolve addr a sign).Follows R := by
  induction addr generalizing a sign with
  | chain steps => exact follows_resolveChain steps a sign
  | toEnd left sep =>
    refine follows_bind (follows_resolveLeft left a) fun l => ?_
    refine follows_bind (follows_startRight sep a l) fun start => ?_
    exact follows_bind (follows_wholeOf start.buffer) fun _ => follows_join _ _
  | compound left sep right ih =>
    refine follows_bind (follows_resolveLeft left a) fun l => ?_
    refine follows_bind (follows_startRight sep a l) fun start => ?_
    exact follows_bind (ih _ _) fun _ => follows_join _ _

theorem follows_resolveFrom (h : Option Handle) (addr : Addr) : (resolveFrom h addr).Follows R := by
  unfold resolveFrom
  split
  · exact follows_bind (follows_dotOf _) fun a => follows_resolve addr a 0
  · refine follows_bind (follows_matchFile _) fun h => ?_
    exact follows_bind (follows_dotOf h) fun a => follows_resolveChain _ a 0
  · exact follows_throw _

theorem follows_withDefault (whole : Bool) (h : Option Handle) (addr : Option Addr) :
    (withDefault whole h addr).Follows R := by
  have hown (h : Handle) : (if whole then wholeOf h else dotOf h).Follows R :=
    follows_ite (follows_wholeOf h) (follows_dotOf h)
  unfold withDefault
  split
  · exact follows_bind (follows_homeOf h) hown
  · exact follows_bind (follows_matchFile _) hown
  · exact follows_resolveFrom h _

theorem follows_refuseLetter (h : Option Handle) (addr : Option Addr) (letter : Char) :
    (refuseLetter h addr letter).Follows R := by
  unfold refuseLetter
  split
  · refine follows_when ?_ fun _ => follows_fail _
    exact follows_bind (follows_withDefault _ h addr) fun _ => follows_pure _
  · exact follows_fail _

theorem follows_onRange (whole : Bool) (h : Option Handle) (addr : Option Addr)
    {f : Target → Run Unit} (hf : ∀ a, (f a).Follows R) : (onRange whole h addr f).Follows R :=
  follows_bind (follows_withDefault whole h addr) hf

end

section
variable [Quiet R]

theorem follows_onBuffer (h : Option Handle) {f : Handle → Run Unit} (hf : ∀ h, (f h).Follows R) :
    (onBuffer h f).Follows R :=
  follows_bind (follows_homeOf h) hf

theorem follows_requireWindow (h : Option Handle) (c : Cmd) : (requireWindow h c).Follows R :=
  follows_ite (follows_fail _) (follows_pure _)

/-! ## Pipes -/

theorem follows_pipeCommand (letter : Char) (argument : Text) :
    (pipeCommand letter argument).Follows R :=
  follows_when (follows_fail _) fun _ => follows_pure _

end

section
variable [Programs R]

theorem follows_runCommand (h : Option Handle) (command : Text) (input : Option Text) :
    (runCommand h command input).Follows R := by
  unfold runCommand
  refine follows_get_bind fun s => ?_
  extract_lets request result invocation
  have hstep : modifyWorkspace (fun w => { w with store := result.store }) s =
    .ok () { s with workspace := { s.workspace with store := result.store } } := rfl
  rw [final_bind_of_ok hstep]
  refine Quiet.trans (Programs.program s result.store ⟨_,request,rfl⟩) (follows_bind ?_ (fun _ => ?_) _)
  · exact follows_modify fun s => Quiet.note s s.messages s.notices _ s.patterns (.refl _)
  · split
    · exact follows_throw _
    · exact follows_when (follows_warn _) fun _ => follows_pure _

theorem follows_fileList (h : Option Handle) (argument : Text) : (fileList h argument).Follows R := by
  unfold fileList
  split
  · refine follows_when (follows_fail _) fun _ => ?_
    exact follows_bind (follows_runCommand _ _ _) fun _ => follows_pure _
  · exact follows_pure _

theorem follows_pipeIn [Dots R] [Records R] (letter : Char) (a : Target) (argument : Text)
    (reads : Bool) : (pipeIn letter a argument reads).Follows R := by
  refine follows_bind (follows_pipeCommand _ _) fun command => ?_
  refine follows_bind (follows_setDot _ _) fun _ => ?_
  refine follows_bind (follows_buffer _) fun b => ?_
  refine follows_bind (follows_runCommand _ _ _) fun c => ?_
  exact follows_record a.buffer (.replace a.r.q0 a.r.q1 c.output)

theorem follows_pipeOut [Dots R] (a : Target) (argument : Text) :
    (pipeOut a argument).Follows R := by
  refine follows_bind (follows_pipeCommand _ _) fun command => ?_
  refine follows_bind (follows_setDot _ _) fun _ => ?_
  refine follows_bind (follows_buffer _) fun b => ?_
  refine follows_bind (follows_runCommand _ _ _) fun c => ?_
  exact follows_ite (follows_warn _) (follows_pure _)

end

/-! ## Files and buffers -/

theorem follows_pathFrom [Quiet R] (h : Option Handle) (name : Text) :
    (pathFrom h name).Follows R := by
  refine follows_ite (follows_pure _) (follows_bind follows_get fun s => ?_)
  split
  · exact follows_pure _
  · exact follows_pure _

theorem follows_readFile [Quiet R] (name : Text) : (readFile name).Follows R := by
  refine follows_bind follows_get fun s => follows_when (follows_fail _) fun _ => ?_
  split
  · exact follows_pure _
  · exact follows_throw _
  · exact follows_fail _

theorem follows_switchTo [Closes R] (argument : Text) : (switchTo argument).Follows R := by
  refine follows_get_bind fun s => ?_
  split
  · exact follows_fail (R := R) _ s
  · rename_i h hfound
    have hswitch (u : Session) (hu : u.workspace = s.workspace) :
        R u { u with current := some h } := Closes.switch u _ h (hu ▸ hfound)
    split
    · exact Quiet.trans (follows_warn _ s) (hswitch _ rfl)
    · exact hswitch s rfl

/-- The files of a list are all known before the first one is opened. -/
theorem openFiles_list {A : Session → Session → Prop} [Programs A] [Opens R] (h : Option Handle)
    (argument : Text) (s : Session) : ∃ u, A s u ∧ R u ((openFiles h argument).final s) := by
  refine final_bind_split (follows_fileList h argument) (fun names => ?_) s
  refine follows_when (follows_fail _) fun _ => ?_
  refine follows_bind (follows_forIn _ (fun name _ => ?_) _) fun _ => follows_pure _
  refine follows_bind (follows_pathFrom h name) fun path => ?_
  refine follows_bind (follows_bind follows_get fun s => ?_) fun _ => follows_pure _
  exact follows_when (follows_throw _) fun _ s => Opens.openFile s path

theorem follows_openFiles [Programs R] [Opens R] (h : Option Handle) (argument : Text) :
    (openFiles h argument).Follows R := by
  intro s
  obtain ⟨u,hlist,hopen⟩ := openFiles_list (A := R) (R := R) h argument s
  exact Quiet.trans hlist hopen

section
variable [Files R]

theorem follows_commandName (h : Handle) (argument : Text) (rename : Bool) :
    (commandName h argument rename).Follows R := by
  unfold commandName
  refine follows_bind (follows_buffer h) fun b => follows_ite (follows_pure _) ?_
  extract_lets stripped finish
  have hfinish (name : Text) : (finish name).Follows R := by
    have hrename := follows_filing (R := R) (t := .rename name) trivial h
    refine follows_ite (follows_bind follows_get fun s => ?_) ?_
    · refine follows_bind (follows_forIn _ (fun other _ => ?_) _) fun _ => ?_
      · exact follows_ite (follows_bind (follows_warn _) fun _ => follows_pure _) (follows_pure _)
      · exact follows_when hrename fun _ => follows_pure _
    · exact follows_when hrename fun _ => follows_pure _
  split
  · exact follows_bind (follows_pure _) hfinish
  · exact follows_bind (follows_pathFrom _ _) hfinish

theorem follows_closeBuffer [Closes R] (h : Handle) : (closeBuffer h).Follows R := by
  refine follows_bind (follows_buffer h) fun b => follows_ite ?_ fun s => ?_
  · refine follows_bind (follows_warn _) fun _ => ?_
    exact follows_filing (t := .markClean) trivial h
  · have hfinal : (do
        modifyWorkspace (·.close h)
        modify fun s => if s.current = some h then { s with current := none } else s :
        Run Unit).final s = s.closing h := by
      rw [final_bind_of_ok (show modifyWorkspace (·.close h) s = .ok () _ from rfl), closing]
      change (if s.current = some h then _ else _) = _
      split <;> rfl
    rw [hfinal]
    exact Closes.close s h

theorem follows_closeFiles [Programs R] [Closes R] (h : Option Handle) (argument : Text) :
    (closeFiles h argument).Follows R := by
  refine follows_bind (follows_fileList h argument) fun names => ?_
  extract_lets closeAll
  have hcloseAll (u : Unit) : (closeAll u).Follows R := by
    refine follows_bind (follows_forIn _ (fun name _ => ?_) _) fun _ => follows_pure _
    refine follows_bind (follows_pathFrom h name) fun path => follows_bind follows_get fun s => ?_
    split
    · exact follows_bind (follows_closeBuffer _) fun _ => follows_pure _
    · exact follows_bind (follows_fail _) fun _ => follows_pure _
  refine follows_ite ?_ (hcloseAll ())
  split
  · exact follows_bind (follows_closeBuffer _) hcloseAll
  · exact follows_pure _

theorem follows_refuseIfDirty (h : Handle) : (refuseIfDirty h).Follows R := by
  refine follows_bind (follows_buffer h) fun b => follows_ite ?_ (follows_pure _)
  exact follows_bind (follows_filing (t := .markClean) trivial h) fun _ => follows_fail _

theorem follows_insertFile [Records R] [Reads R] (h : Handle) (r : Span) (argument : Text)
    (rename : Bool) : (insertFile h r argument rename).Follows R := by
  refine follows_bind (follows_buffer h) fun b => ?_
  refine follows_bind (follows_commandName h argument rename) fun name => ?_
  refine follows_when (follows_fail _) fun _ => follows_bind (follows_buffer h) fun b' => ?_
  refine follows_bind (follows_readFile name) fun text => ?_
  refine follows_bind (follows_record h (.replace r.q0 r.q1 _)) fun _ => ?_
  refine follows_ite (follows_warn _) (follows_ite ?_ (follows_pure _))
  exact follows_bind follows_get fun s => fun u => Reads.read u h _

theorem follows_loadFile [Records R] [Reads R] (h : Handle) (argument : Text) :
    (loadFile h argument).Follows R := by
  refine follows_bind (follows_refuseIfDirty h) fun _ => ?_
  exact follows_bind (follows_buffer h) fun _ => follows_insertFile _ _ _ _

theorem follows_nameBuffer (h : Handle) (argument : Text) : (nameBuffer h argument).Follows R := by
  refine follows_bind (follows_commandName h argument true) fun _ => ?_
  exact follows_bind follows_get fun _ => follows_warn _

theorem follows_putFile [Writes R] (h : Handle) (r : Span) (name : Text) : (putFile h r name).Follows R := by
  unfold putFile
  refine follows_bind (follows_buffer h) fun b => follows_get_bind fun s => ?_
  extract_lets store save
  have hsave (u : Unit) : R s ((save u).final s) := by
    simp only [save]
    split
    · exact follows_throw (R := R) _ s
    · exact follows_warn _ s
    · rename_i written hwrite
      have hstep : modifyWorkspace (fun w => { w with store := written }) s =
        .ok () { s with workspace := { s.workspace with store := written } } := rfl
      rw [final_bind_of_ok hstep]
      refine Quiet.trans (Writes.write s name _ written hwrite) (follows_ite (follows_ite ?_ ?_) ?_ _)
      · refine follows_bind (follows_know h _) fun _ => ?_
        exact follows_filing (t := .markClean) trivial h
      · exact follows_filing (t := .markDirty) trivial h
      · exact follows_pure _
  split
  · split
    · split
      · refine follows_bind (follows_know h _) (fun _ => ?_) s
        exact follows_bind (follows_warn _) fun _ => follows_pure _
      · exact hsave ()
    · exact hsave ()
  · exact hsave ()

theorem follows_writeFile [Writes R] (h : Handle) (r : Span) (argument : Text) :
    (writeFile h r argument).Follows R := by
  refine follows_bind (follows_buffer h) fun b => follows_when (follows_fail _) fun _ => ?_
  refine follows_bind (follows_commandName h argument false) fun name => ?_
  exact follows_when (follows_fail _) fun _ => follows_putFile h r name

end

/-! ## Actions on a range -/

section
variable [Dots R]

theorem follows_insertAt [Records R] (h : Handle) (q : Int) (text : Text) :
    (insertAt h q text).Follows R :=
  follows_when (follows_record h (.insert q text)) fun _ => follows_setDot _ _

theorem follows_change [Records R] (a : Target) (text : Text) : (change a text).Follows R :=
  follows_bind (follows_record _ (.replace a.r.q0 a.r.q1 text)) fun _ => follows_setDot _ _

theorem follows_delete [Records R] (a : Target) : (delete a).Follows R :=
  follows_when (follows_record _ (.delete a.r.q0 a.r.q1)) fun _ => follows_setDot _ _

theorem follows_print (a : Target) : (print a).Follows R :=
  follows_bind (follows_buffer _) fun _ => follows_when (follows_warn _) fun _ => follows_setDot _ _

theorem follows_substitute [Records R] (a : Target) (re : Text) (count : Int) (template : Text)
    (all : Bool) : (substitute a re count template all).Follows R := by
  refine follows_bind (follows_compileFor _ _) fun re => follows_bind (follows_buffer _) fun b => ?_
  refine follows_bind (follows_searching _) fun selected => ?_
  refine follows_bind (follows_forIn _ (fun m _ => ?_) _) fun _ => follows_bind follows_get fun s => ?_
  · exact follows_bind (follows_record a.buffer (.replace m.start m.stop _)) fun _ => follows_pure _
  · exact follows_when (follows_fail _) fun _ => follows_setDot _ _

theorem follows_nextLine (h : Handle) : (nextLine h).Follows R := by
  refine follows_bind (follows_dotOf h) fun dot => ?_
  refine follows_bind (follows_lineAddress _ _ _) fun first => ?_
  refine follows_bind (follows_lineAddress _ _ _) fun last => ?_
  extract_lets extended move
  have hmove (r : Span) : (move r).Follows R := follows_setDot h r
  refine follows_ite ?_ (follows_bind (follows_pure _) hmove)
  exact follows_bind (follows_lineAddress _ _ _) fun _ => follows_bind (follows_pure _) hmove

end

theorem follows_copyTo [Records R] (a dest : Target) : (copyTo a dest).Follows R :=
  follows_bind (follows_buffer _) fun b =>
    follows_record dest.buffer (.insert dest.r.q1 (b.slice a.r.q0 a.r.q1))

theorem follows_moveTo [Records R] (a dest : Target) : (moveTo a dest).Follows R := by
  have hremove := follows_record (R := R) a.buffer (.delete a.r.q0 a.r.q1)
  refine follows_ite ?_ (follows_ite ?_ (follows_ite (follows_pure _) (follows_fail _)))
  · exact follows_bind hremove fun _ => follows_copyTo a dest
  · exact follows_bind (follows_copyTo a dest) fun _ => hremove

theorem follows_showPosition [Quiet R] (a : Target) (mode : Text) :
    (showPosition a mode).Follows R := by
  refine follows_when (follows_fail _) fun _ => follows_bind (follows_buffer _) fun b => ?_
  exact follows_bind (follows_reading _) fun _ => follows_warn _

theorem follows_undo [Undoes R] (h : Handle) (steps : Int) : (undo h steps).Follows R :=
  fun s => Undoes.travel s h steps

/-! ## What loops go through -/

section
variable [Quiet R]

theorem follows_loopRanges (loop : RangeLoop) (a : Target) : (loopRanges loop a).Follows R := by
  unfold loopRanges
  refine follows_bind (follows_buffer _) fun b => ?_
  extract_lets text found
  have hfound (re : Text) : (found re).Follows R :=
    follows_bind (follows_compileFor _ _) fun _ => follows_bind (follows_searching _) fun _ =>
      follows_pure _
  cases loop with
  | lines => exact follows_pure _
  | matching re => exact hfound re
  | between re => exact follows_bind (hfound re) fun _ => follows_pure _

theorem follows_loopBuffers (loop : BufferLoop) (hs : List Handle) :
    (loopBuffers loop hs).Follows R := by
  induction hs with
  | nil => exact follows_pure _
  | cons h rest ih =>
    have hmore (visits : Bool) : (do
        let more ← loopBuffers loop rest
        return if visits then h :: more else more).Follows R := follows_bind ih fun _ => follows_pure _
    cases loop with
    | named => exact follows_bind (follows_buffer h) fun _ => hmore _
    | matching re => exact follows_bind (follows_fileMatches h re) hmore
    | others re => exact follows_bind (follows_fileMatches h re) fun _ => hmore _

/-! ## Reading commands -/

theorem follows_nextCommand (c : Cursor) : (nextCommand c).Follows R := by
  have hkeep (c : Cursor) :
      (modify fun s => { s with patterns := { s.patterns with last := c.last } } : Run Unit).Follows R :=
    follows_modify fun s => Quiet.note s s.messages s.notices s.invocations _ ⟨rfl,rfl⟩
  refine follows_bind follows_get fun s => ?_
  split
  · exact follows_bind (hkeep _) fun _ => follows_pure _
  · exact follows_bind (hkeep _) fun _ => follows_fail _

end

end StructuralEdit.Run
