import Mathlib.Data.List.Basic
import Mathlib.Tactic.SplitIfs
import StatefulPipeline.CommandLine.Arguments

/-! The format in front of a command line. What a line asks for is read with the formats erased, so
that two lines that differ in formats only are read in step; and the format in front counts unless
there is one behind the command. So the line asks for the same under both formats, or for one
invocation as JSON and as text. -/

namespace StatefulPipeline
namespace CommandLine

/-- A value of an option, taken away if it is a format. -/
def Opt.formatless (o : Opt) (text : String) : String := if o = .format then "" else text

@[simp] theorem Opt.formatless_formatless (o : Opt) (text : String) :
    o.formatless (o.formatless text) = o.formatless text := by
  by_cases h : o = .format <;> simp [formatless, h]

theorem Opt.accepts_formatless (o : Opt) (text : String) :
    o.accepts (o.formatless text) = o.accepts text := by
  by_cases h : o = .format
  · subst h
    rfl
  · simp [formatless, h]

namespace Progress

variable (p : Progress)

def formatless : Progress :=
  { p with
    values := p.values.map fun e => (e.1, e.1.formatless e.2)
    pending := p.pending.map fun e => (e.1, e.2.map e.1.formatless) }

@[simp] theorem formatless_formatless : p.formatless.formatless = p.formatless := by
  simp [formatless, Function.comp_def]

theorem get?_formatless (o : Opt) : p.formatless.get? o = (p.get? o).map o.formatless := by
  simp only [get?, formatless, List.find?_map, Function.comp_def, Option.map_map]
  cases hf : p.values.find? fun e => e.1 = o with
  | none => rfl
  | some e =>
    have he : e.1 = o := by simpa using List.find?_some hf
    simp [he]

theorem take_formatless (o : Opt) (text : String) :
    p.formatless.take o (o.formatless text) = (p.take o text).map formatless := by
  simp only [take, get?_formatless, Option.isNone_map, Opt.accepts_formatless]
  split_ifs
  · simp [formatless]
  · rfl

theorem settle_formatless : p.formatless.settle = p.settle.map formatless := by
  obtain ⟨values, service, pending, trailing⟩ := p
  rcases pending with _ | ⟨o, _ | text⟩
  · rfl
  · rfl
  · exact take_formatless ⟨values, service, none, trailing⟩ o text

theorem trailing_formatless : p.formatless.trailing = p.trailing := rfl

theorem awaiting_formatless : p.formatless.awaiting = p.awaiting := by
  obtain ⟨values, service, pending, trailing⟩ := p
  rcases pending with _ | ⟨o, _ | text⟩ <;> rfl

end Progress

def Reading.formatless : Reading → Reading
  | .go p => .go p.formatless
  | other => other

section Reading

variable (p : Progress)

theorem readOption_formatless (o : Opt) (value : Option String) :
    readOption p.formatless o (value.map o.formatless) = (readOption p o value).formatless := by
  rw [readOption, readOption, Progress.settle_formatless]
  cases p.settle with
  | none => rfl
  | some p' =>
    cases value with
    | none => rfl
    | some text =>
      simp only [Option.map_some, Progress.take_formatless]
      cases p'.take o text <;> rfl

theorem readVersion_formatless : readVersion p.formatless = (readVersion p).formatless := by
  rw [readVersion, readVersion, Progress.settle_formatless]
  cases p.settle <;> rfl

theorem readName_formatless (takesService : Bool) (arg : String) :
    readName takesService p.formatless arg = (readName takesService p arg).formatless := by
  rw [readName, readName, Progress.settle_formatless]
  cases p.settle with
  | none => rfl
  | some p' =>
    have hs : p'.formatless.service = p'.service := rfl
    simp only [Option.map_some, hs]
    split_ifs <;> rfl

/-- Formats that have been read do not change how the next argument is read. -/
theorem readArgument_formatless (options : List Opt) (takesService : Bool) (arg : String) :
    (readArgument options takesService p.formatless arg).formatless =
      (readArgument options takesService p arg).formatless := by
  -- The argument may bring a format of its own; so the results are compared without formats too.
  have hoption (o : Opt) (value : Option String) :
      (readOption p.formatless o value).formatless = (readOption p o value).formatless := by
    rw [← readOption_formatless, ← readOption_formatless, Progress.formatless_formatless]
  have hversion : (readVersion p.formatless).formatless = (readVersion p).formatless := by
    rw [← readVersion_formatless, ← readVersion_formatless, Progress.formatless_formatless]
  have hname : (readName takesService p.formatless arg).formatless =
      (readName takesService p arg).formatless := by
    rw [← readName_formatless, ← readName_formatless, Progress.formatless_formatless]
  rw [readArgument, readArgument, p.trailing_formatless]
  split_ifs
  · exact hname
  · cases Shape.of arg with
    | dashes => exact congrArg Reading.go { p with trailing := true }.formatless_formatless
    | long name value =>
      simp only
      cases options.find? fun o => o.long = name with
      | some o => exact hoption o value
      | none =>
        simp only
        split_ifs
        · exact hversion
        · rfl
    | short letter rest =>
      simp only
      cases options.find? fun o => o.short? = some letter with
      | some o => exact hoption o (attached? rest)
      | none =>
        simp only
        split_ifs
        · exact hversion
        · rfl
    | plain =>
      obtain ⟨values, service, pending, trailing⟩ := p
      rcases pending with _ | ⟨o, _ | text⟩
      · exact hname
      · simp [Reading.formatless, Progress.formatless]
      · exact hname

end Reading

def Request.formatless : Request → Request
  | .run inv => .run { inv with json := false }
  | other => other

theorem invocationOf_formatless (verb : Verb) (before after : Progress) :
    { invocationOf verb before.formatless after with json := false } =
      { invocationOf verb before after with json := false } := by
  have hsame (o : Opt) (ho : o ≠ .format) :
      after.prefer before.formatless o = after.prefer before o := by
    have hid : o.formatless = id := by
      funext text
      exact if_neg ho
    rw [Progress.prefer, Progress.prefer, Progress.get?_formatless, hid, Option.map_id_fun, id]
  simp [invocationOf, hsame]

/-- Goes on with the arguments behind one that stands in front of the command. -/
def resume (args : List String) : Reading → Request
  | .go p => readBefore p args
  | .usage => .usage
  | .version => .version none

theorem readBefore_of_argument {p : Progress} {arg : String} (args : List String)
    (h : (p.trailing || p.awaiting) = true ∨ Verb.ofName? arg = none) :
    readBefore p (arg :: args) = resume args (readArgument Opt.globals false p arg) := by
  rw [readBefore]
  rcases h with h | h
  · rw [if_pos h]
    cases readArgument Opt.globals false p arg <;> rfl
  · rw [h]
    cases readArgument Opt.globals false p arg <;> exact ite_self _

theorem resume_formatless {args : List String}
    (ih : ∀ p, (readBefore p.formatless args).formatless = (readBefore p args).formatless)
    (reading : Reading) :
    (resume args reading.formatless).formatless = (resume args reading).formatless := by
  cases reading with
  | usage => rfl
  | version => rfl
  | go p => exact ih p

theorem readBefore_formatless (p : Progress) (args : List String) :
    (readBefore p.formatless args).formatless = (readBefore p args).formatless := by
  induction args generalizing p with
  | nil => rfl
  | cons arg args ih =>
    have hlooks : (p.formatless.trailing || p.formatless.awaiting) =
        (p.trailing || p.awaiting) := by
      rw [p.trailing_formatless, p.awaiting_formatless]
    by_cases h : (p.trailing || p.awaiting) = true ∨ Verb.ofName? arg = none
    · rw [readBefore_of_argument args h, readBefore_of_argument args (hlooks ▸ h)]
      rw [← resume_formatless ih, readArgument_formatless, resume_formatless ih]
    · obtain ⟨hplain, hverb⟩ := not_or.mp h
      obtain ⟨verb, hverb⟩ := Option.ne_none_iff_exists'.mp hverb
      rw [readBefore, readBefore, hlooks, if_neg hplain, if_neg hplain, hverb,
        Progress.settle_formatless]
      simp only
      cases readAfter verb .start args with
      | usage => rfl
      | version => rfl
      | go after =>
        cases p.settle with
        | none => rfl
        | some before => exact congrArg Request.run (invocationOf_formatless verb before after)

def Progress.withFormat (format : String) : Progress :=
  { Progress.start with pending := some (.format, some format) }

theorem Progress.formatless_withFormat (format format' : String) :
    (withFormat format).formatless = (withFormat format').formatless := rfl

theorem read_format {format : String} (h : Shape.of format = .plain) (args : List String) :
    Request.read ("--format" :: format :: args) = readBefore (.withFormat format) args := by
  have hoption : readArgument Opt.globals false .start "--format" =
      .go { Progress.start with pending := some (.format, none) } := by
    decide
  have hvalue : readArgument Opt.globals false
        { Progress.start with pending := some (.format, none) } format =
      .go (.withFormat format) := by
    simp [readArgument, h, Progress.start, Progress.withFormat]
  rw [Request.read, readBefore_of_argument _ (.inr (by decide)), hoption, resume,
    readBefore_of_argument _ (.inl rfl), hvalue, resume]

/-- A format in front of a command line changes nothing of what the line asks for but itself. -/
theorem read_json_formatless (args : List String) :
    (Request.read ("--format" :: "json" :: args)).formatless =
      (Request.read ("--format" :: "text" :: args)).formatless := by
  rw [read_format (by decide), read_format (by decide), ← readBefore_formatless,
    Progress.formatless_withFormat "json" "text", readBefore_formatless]

/-- The first format that has been read is the given one, whether or not it has been taken yet. -/
def Progress.HoldsFormat (format : String) (p : Progress) : Prop :=
  p.get? .format = some format ∨
    p.get? .format = none ∧ p.pending = some (.format, some format)

theorem Progress.holdsFormat_withFormat (format : String) :
    (withFormat format).HoldsFormat format := .inr ⟨rfl, rfl⟩

section HoldsFormat

variable {format : String} {p p' : Progress}

theorem Progress.get?_of_take {o o' : Opt} {text value : String} (h : p.take o text = some p')
    (hget : p.get? o' = some value) : p'.get? o' = some value := by
  rw [take] at h
  split_ifs at h
  cases h
  obtain ⟨e, he, rfl⟩ := Option.map_eq_some_iff.mp hget
  simp [get?, List.find?_append, he]

theorem Progress.HoldsFormat.get?_of_settle (h : p.HoldsFormat format) (hs : p.settle = some p') :
    p'.get? .format = some format := by
  obtain ⟨values, service, pending, trailing⟩ := p
  rcases h with h | ⟨hnone, hpending⟩
  · rcases pending with _ | ⟨o, _ | text⟩
    · cases hs
      exact h
    · cases hs
    · exact get?_of_take hs h
  · obtain rfl : pending = some (.format, some format) := hpending
    have hfind : values.find? (fun e => e.1 = .format) = none := Option.map_eq_none_iff.mp hnone
    simp only [settle, take] at hs
    split_ifs at hs
    cases hs
    simp [get?, List.find?_append, hfind]

theorem holdsFormat_of_readOption (h : p.HoldsFormat format) {o : Opt} {value : Option String}
    (hr : readOption p o value = .go p') : p'.HoldsFormat format := by
  rw [readOption] at hr
  cases hs : p.settle with
  | none => simp [hs] at hr
  | some settled =>
    have hget := h.get?_of_settle hs
    rw [hs] at hr
    cases value with
    | none =>
      cases hr
      exact .inl hget
    | some text =>
      cases ht : settled.take o text with
      | none => simp [ht, Reading.ofOption] at hr
      | some taken =>
        simp only [ht, Reading.ofOption, Reading.go.injEq] at hr
        exact .inl (hr ▸ Progress.get?_of_take ht hget)

theorem holdsFormat_of_readName (h : p.HoldsFormat format) {takesService : Bool} {arg : String}
    (hr : readName takesService p arg = .go p') : p'.HoldsFormat format := by
  rw [readName] at hr
  cases hs : p.settle with
  | none => simp [hs] at hr
  | some settled =>
    have hget := h.get?_of_settle hs
    simp only [hs] at hr
    split_ifs at hr
    cases hr
    exact .inl hget

theorem readVersion_ne_go : readVersion p ≠ .go p' := by
  rw [readVersion]
  cases p.settle <;> simp

theorem holdsFormat_of_readArgument (h : p.HoldsFormat format) {options : List Opt}
    {takesService : Bool} {arg : String}
    (hr : readArgument options takesService p arg = .go p') : p'.HoldsFormat format := by
  rw [readArgument] at hr
  split_ifs at hr
  · exact holdsFormat_of_readName h hr
  · cases hshape : Shape.of arg with
    | dashes =>
      simp only [hshape, Reading.go.injEq] at hr
      subst hr
      exact h
    | long name value =>
      simp only [hshape] at hr
      cases ho : options.find? fun o => o.long = name with
      | some o => exact holdsFormat_of_readOption h (by simpa [ho] using hr)
      | none =>
        simp only [ho] at hr
        split_ifs at hr
        exact absurd hr readVersion_ne_go
    | short letter rest =>
      simp only [hshape] at hr
      cases ho : options.find? fun o => o.short? = some letter with
      | some o => exact holdsFormat_of_readOption h (by simpa [ho] using hr)
      | none =>
        simp only [ho] at hr
        split_ifs at hr
        exact absurd hr readVersion_ne_go
    | plain =>
      simp only [hshape] at hr
      obtain ⟨values, service, pending, trailing⟩ := p
      rcases pending with _ | ⟨o, _ | text⟩
      · exact holdsFormat_of_readName h hr
      · cases hr
        rcases h with h | ⟨_, hpending⟩
        · exact .inl h
        · cases hpending
      · exact holdsFormat_of_readName h hr

end HoldsFormat

theorem resume_eq_run {args : List String} {reading : Reading} {inv : Invocation}
    (h : resume args reading = .run inv) :
    ∃ p, reading = .go p ∧ readBefore p args = .run inv := by
  cases reading with
  | usage => cases h
  | version => cases h
  | go p => exact ⟨p, rfl, h⟩

theorem json_invocationOf {verb : Verb} {before after : Progress} {format : String}
    (h : before.get? .format = some format) :
    (invocationOf verb before after).json = true ↔
      (after.get? .format).getD format = "json" := by
  simp only [invocationOf, Progress.prefer, h]
  cases after.get? .format <;> simp

/-- A line with the text format in front asks for JSON only if it does so with JSON in front: then
a format behind the command has decided. -/
theorem json_of_json_behind_text {p q : Progress} {args : List String} {inv inv' : Invocation}
    (hp : p.HoldsFormat "json") (hq : q.HoldsFormat "text") (hpq : p.formatless = q.formatless)
    (h : readBefore p args = .run inv) (h' : readBefore q args = .run inv')
    (hjson : inv'.json = true) : inv.json = true := by
  -- Both lines are read in step, since the two progresses differ in formats only.
  induction args generalizing p q with
  | nil => cases h
  | cons arg args ih =>
    have hlooks : (p.trailing || p.awaiting) = (q.trailing || q.awaiting) := by
      rw [← p.trailing_formatless, ← p.awaiting_formatless, hpq, q.trailing_formatless,
        q.awaiting_formatless]
    by_cases hverb : (p.trailing || p.awaiting) = true ∨ Verb.ofName? arg = none
    · rw [readBefore_of_argument args hverb] at h
      rw [readBefore_of_argument args (hlooks ▸ hverb)] at h'
      obtain ⟨p', hp', h⟩ := resume_eq_run h
      obtain ⟨q', hq', h'⟩ := resume_eq_run h'
      have hnext : (Reading.go p').formatless = (Reading.go q').formatless := by
        rw [← hp', ← hq', ← readArgument_formatless, hpq, readArgument_formatless]
      exact ih (holdsFormat_of_readArgument hp hp') (holdsFormat_of_readArgument hq hq')
        (Reading.go.inj hnext) h h'
    · obtain ⟨hplain, hname⟩ := not_or.mp hverb
      obtain ⟨verb, hname⟩ := Option.ne_none_iff_exists'.mp hname
      rw [readBefore, if_neg hplain, hname] at h
      rw [readBefore, if_neg (hlooks ▸ hplain), hname] at h'
      simp only at h h'
      cases hafter : readAfter verb .start args with
      | usage => simp [hafter] at h
      | version => simp [hafter] at h
      | go after =>
        cases hb : p.settle with
        | none => simp [hafter, hb] at h
        | some before =>
          cases hb' : q.settle with
          | none => simp [hafter, hb'] at h'
          | some before' =>
            simp only [hafter, hb, Request.run.injEq] at h
            simp only [hafter, hb', Request.run.injEq] at h'
            subst h h'
            rw [json_invocationOf (hq.get?_of_settle hb')] at hjson
            rw [json_invocationOf (hp.get?_of_settle hb)]
            cases hgiven : after.get? .format with
            | none => simp
            | some given => simpa [hgiven] using hjson

namespace Request

theorem eq_run_of_formatless {inv : Invocation} {r : Request}
    (h : (Request.run inv).formatless = r.formatless) :
    ∃ json, r = .run { inv with json := json } := by
  cases r with
  | usage => cases h
  | version verb => cases h
  | run inv' =>
    obtain ⟨config, device, json, command⟩ := inv
    obtain ⟨config', device', json', command'⟩ := inv'
    cases h
    exact ⟨json', rfl⟩

theorem formatless_of_ne_run {r : Request} (hr : ∀ inv, r ≠ .run inv) : r.formatless = r := by
  cases r with
  | usage => rfl
  | version verb => rfl
  | run inv => exact absurd rfl (hr inv)

theorem eq_of_formatless {r r' : Request} (hr : ∀ inv, r ≠ .run inv)
    (h : r.formatless = r'.formatless) : r = r' := by
  have hr' : ∀ inv, r' ≠ .run inv := by
    rintro inv rfl
    obtain ⟨json, hrun⟩ := eq_run_of_formatless h.symm
    exact hr _ hrun
  rw [← formatless_of_ne_run hr, h, formatless_of_ne_run hr']

end Request

theorem read_format_cases (args : List String) :
    Request.read ("--format" :: "json" :: args) = Request.read ("--format" :: "text" :: args) ∨
      ∃ inv : Invocation,
        Request.read ("--format" :: "json" :: args) = .run { inv with json := true } ∧
        Request.read ("--format" :: "text" :: args) = .run { inv with json := false } := by
  have hread := read_json_formatless args
  by_cases hrun : ∃ inv, Request.read ("--format" :: "json" :: args) = .run inv
  · obtain ⟨inv, hinv⟩ := hrun
    rw [hinv] at hread
    obtain ⟨json, hinv'⟩ := Request.eq_run_of_formatless hread
    have hbehind : json = true → inv.json = true := by
      rw [read_format (by decide)] at hinv hinv'
      exact json_of_json_behind_text (Progress.holdsFormat_withFormat _)
        (Progress.holdsFormat_withFormat _) (Progress.formatless_withFormat _ _) hinv hinv'
    by_cases hsame : inv.json = json
    · left
      rw [hinv, hinv', ← hsame]
    · right
      cases json with
      | true => exact absurd (hbehind rfl) hsame
      | false =>
        have hjson : inv.json = true := eq_true_of_ne_false hsame
        exact ⟨inv, by rw [hinv, ← hjson], hinv'⟩
  · left
    exact Request.eq_of_formatless (not_exists.mp hrun) hread

end CommandLine
end StatefulPipeline
