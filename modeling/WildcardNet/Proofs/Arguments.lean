import Mathlib.Data.List.TakeWhile
import WildcardNet.Options
/-!
# Arguments in pieces

Arguments are read one piece after another, a piece being a single argument or an option with its
value behind it. What a piece says does not depend on the options read before it, and later pieces
override earlier ones. So options make up a monoid, reading takes two lists put together to the
product of what they say, and a value may stand in its own argument or behind an equals sign.
-/

namespace WildcardNet

namespace Options

variable {o p q : Options} {option : ValueOption} {flag : Flag} {arg name value : String}
  {a b args rest : List String} {e : UsageError}

/-! ### Overriding -/

/-- The second options where they are set and the first elsewhere. Arguments that are not options
come one after the other. -/
def overriddenBy (o p : Options) : Options where
  configPath := p.configPath.or o.configPath
  identity := p.identity.or o.identity
  other := p.other.or o.other
  alphabet := p.alphabet.or o.alphabet
  separator := p.separator.or o.separator
  hardEpsilon := p.hardEpsilon.or o.hardEpsilon
  verbose := o.verbose || p.verbose
  help := o.help || p.help
  positional := o.positional ++ p.positional

theorem default_overriddenBy (p : Options) : ({} : Options).overriddenBy p = p := by
  simp [overriddenBy]

theorem overriddenBy_default (o : Options) : o.overriddenBy {} = o := by
  simp [overriddenBy]

theorem overriddenBy_assoc (o p q : Options) :
    (o.overriddenBy p).overriddenBy q = o.overriddenBy (p.overriddenBy q) := by
  simp only [overriddenBy, Option.or_assoc, Bool.or_assoc, List.append_assoc]

theorem setFlag_eq_overriddenBy (o : Options) (flag : Flag) :
    o.setFlag flag = o.overriddenBy (({} : Options).setFlag flag) := by
  cases flag <;> simp [setFlag, overriddenBy]

theorem with_positional_eq_overriddenBy (o : Options) (arg : String) :
    { o with positional := o.positional ++ [arg] } =
      o.overriddenBy { positional := [arg] } := by
  simp [overriddenBy]

/-- Whether a value is accepted does not depend on the options before it. -/
theorem setValue_eq_map_overriddenBy (o : Options) (option : ValueOption) (name value : String) :
    o.setValue option name value =
      (({} : Options).setValue option name value).map o.overriddenBy := by
  cases option with
  | config => simp [setValue, overriddenBy, Except.map]
  | alphabet =>
    simp only [setValue]
    cases readAlphabetValue name value.toList with
    | error e => rfl
    | ok labels => simp [overriddenBy, bind, Except.bind, pure, Except.pure, Except.map]
  | identity | other | separator | hardEpsilon =>
    simp only [setValue]
    cases readLabelValue name value.toList with
    | error e => rfl
    | ok label => simp [overriddenBy, bind, Except.bind, pure, Except.pure, Except.map]

theorem bind_setValue_of_ok (h : ({} : Options).setValue option name value = .ok p) (o : Options)
    (next : Options → Except UsageError Options) :
    (o.setValue option name value).bind next = next (o.overriddenBy p) := by
  rw [setValue_eq_map_overriddenBy, h]
  rfl

theorem bind_setValue_of_error (h : ({} : Options).setValue option name value = .error e)
    (o : Options) (next : Options → Except UsageError Options) :
    (o.setValue option name value).bind next = .error e := by
  rw [setValue_eq_map_overriddenBy, h]
  rfl

/-! ### One piece -/

theorem parseFrom_inline (hsplit : splitArgument arg = (name, some value))
    (hname : ValueOption.ofName? name = some option) (o : Options) (rest : List String) :
    o.parseFrom (arg :: rest) =
      (o.setValue option name value).bind fun o' => o'.parseFrom rest := by
  simp only [parseFrom, hsplit, hname]
  rfl

theorem parseFrom_separate (hsplit : splitArgument arg = (name, none))
    (hname : ValueOption.ofName? name = some option) (o : Options) (rest : List String) :
    o.parseFrom (arg :: value :: rest) =
      (o.setValue option name value).bind fun o' => o'.parseFrom rest := by
  simp only [parseFrom, hsplit, hname]
  rfl

theorem parseFrom_flag {inline? : Option String} (hsplit : splitArgument arg = (name, inline?))
    (hname : ValueOption.ofName? name = none) (hflag : Flag.ofName? name = some flag) (o : Options)
    (rest : List String) : o.parseFrom (arg :: rest) = (o.setFlag flag).parseFrom rest := by
  simp only [parseFrom, hsplit, hname, hflag]

theorem parseFrom_plain {inline? : Option String} (hsplit : splitArgument arg = (name, inline?))
    (hname : ValueOption.ofName? name = none) (hflag : Flag.ofName? name = none) (o : Options)
    (rest : List String) :
    o.parseFrom (arg :: rest) =
      if looksLikeOption name then .error (.unknownOption name)
      else ({ o with positional := o.positional ++ [arg] } : Options).parseFrom rest := by
  simp only [parseFrom, hsplit, hname, hflag]

/-- The arguments start with a piece that says `p`, and `rest` comes behind it. -/
inductive Piece : List String → Options → List String → Prop
  | inline {arg name value : String} {option : ValueOption} {p : Options} {rest : List String}
      (split : splitArgument arg = (name, some value))
      (named : ValueOption.ofName? name = some option)
      (set : ({} : Options).setValue option name value = .ok p) : Piece (arg :: rest) p rest
  | separate {arg name value : String} {option : ValueOption} {p : Options} {rest : List String}
      (split : splitArgument arg = (name, none))
      (named : ValueOption.ofName? name = some option)
      (set : ({} : Options).setValue option name value = .ok p) :
      Piece (arg :: value :: rest) p rest
  | flag {arg name : String} {inline? : Option String} {flag : Flag} {rest : List String}
      (split : splitArgument arg = (name, inline?)) (unnamed : ValueOption.ofName? name = none)
      (named : Flag.ofName? name = some flag) :
      Piece (arg :: rest) (({} : Options).setFlag flag) rest
  | plain {arg name : String} {inline? : Option String} {rest : List String}
      (split : splitArgument arg = (name, inline?)) (unnamed : ValueOption.ofName? name = none)
      (unflagged : Flag.ofName? name = none) (plain : looksLikeOption name = false) :
      Piece (arg :: rest) { positional := [arg] } rest

namespace Piece

theorem length_lt (h : Piece args p rest) : rest.length < args.length := by
  cases h <;> simp only [List.length_cons] <;> omega

/-- A piece is complete: what comes behind it may be anything. -/
theorem append (h : Piece args p rest) (b : List String) : Piece (args ++ b) p (rest ++ b) := by
  cases h with
  | inline split named set => exact .inline split named set
  | separate split named set => exact .separate split named set
  | flag split unnamed named => exact .flag split unnamed named
  | plain split unnamed unflagged plain => exact .plain split unnamed unflagged plain

theorem parseFrom_eq (h : Piece args p rest) (o : Options) :
    o.parseFrom args = (o.overriddenBy p).parseFrom rest := by
  cases h with
  | inline split named set =>
    rw [parseFrom_inline split named, bind_setValue_of_ok set]
  | separate split named set =>
    rw [parseFrom_separate split named, bind_setValue_of_ok set]
  | flag split unnamed named => rw [parseFrom_flag split unnamed named, setFlag_eq_overriddenBy]
  | plain split unnamed unflagged plain =>
    rw [parseFrom_plain split unnamed unflagged, plain, with_positional_eq_overriddenBy]
    rfl

end Piece

/-- Arguments start with a piece, or are refused with the same error after any options. -/
theorem exists_piece_or_error (arg : String) (rest : List String) :
    (∃ p rest', Piece (arg :: rest) p rest') ∨
      ∃ e, ∀ o : Options, o.parseFrom (arg :: rest) = .error e := by
  rcases hsplit : splitArgument arg with ⟨name, inline?⟩
  cases hname : ValueOption.ofName? name with
  | some option =>
    -- The value is at hand, in the next argument, or missing.
    match inline?, rest with
    | some value, rest =>
      cases hset : ({} : Options).setValue option name value with
      | ok p => exact .inl ⟨p, rest, .inline hsplit hname hset⟩
      | error e =>
        refine .inr ⟨e, fun o => ?_⟩
        rw [parseFrom_inline hsplit hname, bind_setValue_of_error hset]
    | none, value :: rest =>
      cases hset : ({} : Options).setValue option name value with
      | ok p => exact .inl ⟨p, rest, .separate hsplit hname hset⟩
      | error e =>
        refine .inr ⟨e, fun o => ?_⟩
        rw [parseFrom_separate hsplit hname, bind_setValue_of_error hset]
    | none, [] =>
      refine .inr ⟨.valueMissing name, fun o => ?_⟩
      simp only [parseFrom, hsplit, hname]
  | none =>
    cases hflag : Flag.ofName? name with
    | some flag => exact .inl ⟨_, rest, .flag hsplit hname hflag⟩
    | none =>
      cases hlook : looksLikeOption name with
      | false => exact .inl ⟨_, rest, .plain hsplit hname hflag hlook⟩
      | true =>
        refine .inr ⟨.unknownOption name, fun o => ?_⟩
        rw [parseFrom_plain hsplit hname hflag, hlook]
        rfl

/-! ### All pieces -/

/-- Arguments that are accepted say the same whatever was read before and whatever follows; others
are refused with the same error after any options. In particular no accepted list leaves an option
waiting for its value. -/
theorem exists_overriddenBy_or_error (args : List String) :
    (∃ p, ∀ (o : Options) (b : List String),
        o.parseFrom (args ++ b) = (o.overriddenBy p).parseFrom b) ∨
      ∃ e, ∀ o : Options, o.parseFrom args = .error e := by
  -- A piece may take two arguments, so the induction is on the length.
  induction hn : args.length using Nat.strongRecOn generalizing args with
  | ind n ih =>
    cases args with
    | nil => exact .inl ⟨{}, fun o b => by rw [overriddenBy_default, List.nil_append]⟩
    | cons arg args =>
      rcases exists_piece_or_error arg args with ⟨p, rest, hpiece⟩ | herror
      · rcases ih rest.length (hn ▸ hpiece.length_lt) rest rfl with ⟨q, hrest⟩ | ⟨e, hrest⟩
        · refine .inl ⟨p.overriddenBy q, fun o b => ?_⟩
          rw [(hpiece.append b).parseFrom_eq, hrest, overriddenBy_assoc]
        · exact .inr ⟨e, fun o => by rw [hpiece.parseFrom_eq, hrest]⟩
      · exact .inr herror

theorem parseFrom_append (h : parse a = .ok p) (o : Options) (b : List String) :
    o.parseFrom (a ++ b) = (o.overriddenBy p).parseFrom b := by
  rcases exists_overriddenBy_or_error a with ⟨q, hq⟩ | ⟨e, he⟩
  · have hparse : parse a = .ok q := by
      have hread := hq {} []
      rwa [List.append_nil, default_overriddenBy] at hread
    rw [hparse] at h
    cases h
    exact hq o b
  · rw [parse, he] at h
    cases h

theorem parse_append_eq (h : parse a = .ok p) (b : List String) :
    parse (a ++ b) = p.parseFrom b := by
  rw [parse, parseFrom_append h, default_overriddenBy]

theorem parseFrom_of_parse_error (h : parse b = .error e) (o : Options) :
    o.parseFrom b = .error e := by
  rcases exists_overriddenBy_or_error b with ⟨q, hq⟩ | ⟨e', he⟩
  · have hread := hq {} []
    rw [List.append_nil] at hread
    rw [parse, hread] at h
    cases h
  · rw [parse, he] at h
    cases h
    exact he o

/-- Behind accepted arguments others are refused as they are on their own, and otherwise override
what came before. -/
theorem parse_append_overrides (h : parse a = .ok p) (b : List String) :
    (∀ e, parse b = .error e → parse (a ++ b) = .error e) ∧
      ∀ q, parse b = .ok q → parse (a ++ b) = .ok (p.overriddenBy q) := by
  rw [parse_append_eq h]
  refine ⟨fun e he => parseFrom_of_parse_error he p, fun q hq => ?_⟩
  have hread := parseFrom_append hq p []
  rwa [List.append_nil] at hread

theorem parse_append_overrides_repeated :
    let a := ["expand", "--config", "--alphabet", "--other-id=7", "-v", "--separator", "200"]
    let b := ["--other-id", "+8", "x=y", "--alphabet=3, 4,,5", "--config=", "--verbose=no"]
    let p : Options :=
      { configPath := some "--alphabet", identity := some 7, separator := some 200, verbose := true,
        positional := ["expand"] }
    let q : Options :=
      { configPath := some "", identity := some 8, alphabet := some [3, 4, 5], verbose := true,
        positional := ["x=y"] }
    parse a = .ok p ∧ parse b = .ok q ∧ parse (a ++ b) = .ok (p.overriddenBy q) ∧
      p.overriddenBy q =
        { configPath := some "", identity := some 8, alphabet := some [3, 4, 5],
          separator := some 200, verbose := true, positional := ["expand", "x=y"] } ∧
      parse (a ++ ["--help", "--alphabet", "1,x"]) = .error (.badLabel "--alphabet" ['x']) := by
  intro a b p q
  have ha : parse a = .ok p := rfl
  have hb : parse b = .ok q := rfl
  have hbad : parse ["--help", "--alphabet", "1,x"] = .error (.badLabel "--alphabet" ['x']) := by
    rfl
  exact ⟨ha, hb, (parse_append_overrides ha b).2 q hb, rfl, (parse_append_overrides ha _).1 _ hbad⟩

/-! ### Two ways to give a value -/

end Options

/-- The name of an option that may carry its value behind an equals sign. -/
def ValueOption.longName : ValueOption → String
  | .config => "--config"
  | .identity => "--other-id"
  | .other => "--other-nonid"
  | .alphabet => "--alphabet"
  | .separator => "--separator"
  | .hardEpsilon => "--hard-epsilon"

theorem ValueOption.ofName?_longName (option : ValueOption) :
    ofName? option.longName = some option := by
  cases option <;> rfl

theorem splitArgument_of_notMem {arg : String} (h : '=' ∉ arg.toList) :
    splitArgument arg = (arg, none) := by
  have hnone : arg.toList.dropWhile (· ≠ '=') = [] := by
    rw [List.dropWhile_eq_nil_iff]
    intro c hc
    simpa using fun heq : c = '=' => h (heq ▸ hc)
  simp only [splitArgument, hnone]

/-- Only the first equals sign divides, so the value may hold others. -/
theorem splitArgument_inline {name : String} (hlong : "--".toList.isPrefixOf name.toList = true)
    (h : '=' ∉ name.toList) (value : String) :
    splitArgument (name ++ "=" ++ value) = (name, some value) := by
  have hplain : ∀ c ∈ name.toList, decide (c ≠ '=') = true := by
    intro c hc
    simpa using fun heq : c = '=' => h (heq ▸ hc)
  have hlist : (name ++ "=" ++ value).toList = name.toList ++ '=' :: value.toList := by
    simp
  have htake : (name ++ "=" ++ value).toList.takeWhile (· ≠ '=') = name.toList := by
    rw [hlist, List.takeWhile_append_of_pos hplain]
    simp
  have hdrop : (name ++ "=" ++ value).toList.dropWhile (· ≠ '=') = '=' :: value.toList := by
    rw [hlist, List.dropWhile_append_of_pos hplain]
    simp
  simp only [splitArgument, htake, hdrop, hlong, if_true, String.ofList_toList]

namespace ValueOption

theorem isPrefixOf_longName (option : ValueOption) :
    "--".toList.isPrefixOf option.longName.toList = true := by
  cases option <;> rfl

theorem notMem_longName (option : ValueOption) : '=' ∉ option.longName.toList := by
  cases option <;> decide

end ValueOption

namespace Options

variable {p : Options} {a : List String}

/-- Behind accepted arguments, a value in its own argument and one behind an equals sign mean the
same, as options or as an error. -/
theorem parse_inline_eq_parse_separate (h : parse a = .ok p) (option : ValueOption) (value : String)
    (b : List String) :
    parse (a ++ [option.longName ++ "=" ++ value] ++ b) =
      parse (a ++ [option.longName, value] ++ b) := by
  have hinline := splitArgument_inline option.isPrefixOf_longName option.notMem_longName value
  have hseparate := splitArgument_of_notMem option.notMem_longName
  rw [List.append_assoc, List.append_assoc, parse_append_eq h, parse_append_eq h]
  calc p.parseFrom ([option.longName ++ "=" ++ value] ++ b)
      = (p.setValue option option.longName value).bind fun o => o.parseFrom b :=
        parseFrom_inline hinline option.ofName?_longName p b
    _ = p.parseFrom ([option.longName, value] ++ b) :=
        (parseFrom_separate hseparate option.ofName?_longName p b).symm

theorem parse_inline_eq_parse_separate_hyphens :
    let a := ["-c", "--other-id"]
    let b := ["--other-id", "5=5"]
    parse a = .ok { configPath := some "--other-id" } ∧
      parse (a ++ ["--config=--help=1"] ++ b) = parse (a ++ ["--config", "--help=1"] ++ b) ∧
      parse (a ++ ["--config", "--help=1"] ++ b) = .error (.badLabel "--other-id" "5=5".toList) ∧
      parse (a ++ ["--alphabet="] ++ ["x"]) =
        .ok { configPath := some "--other-id", alphabet := some [], positional := ["x"] } := by
  intro a b
  have ha : parse a = .ok { configPath := some "--other-id" } := rfl
  have hempty : parse (a ++ ["--alphabet", ""] ++ ["x"]) =
      .ok { configPath := some "--other-id", alphabet := some [], positional := ["x"] } := by
    rfl
  exact ⟨ha, parse_inline_eq_parse_separate ha .config "--help=1" b, rfl,
    (parse_inline_eq_parse_separate ha .alphabet "" ["x"]).trans hempty⟩

end Options

end WildcardNet
