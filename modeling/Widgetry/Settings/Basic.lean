/-!
# Settings

What can be chosen about the toolkit as a whole. Every setting has a default.
-/

namespace Widgetry

/-- What a stage does with input that it cannot map: refuse it, or put something in its place. -/
inductive Policy where
  | strict
  | permissive
deriving DecidableEq, Repr

namespace Policy

def name : Policy → String
  | strict => "strict"
  | permissive => "permissive"

def all : List Policy := [strict, permissive]

def ofName? (s : String) : Option Policy := all.find? (·.name == s)

end Policy

/-- How the fingerprint of a source text is computed. -/
inductive DigestAlgorithm where
  | xxhash64
  | sha256
deriving DecidableEq, Repr

namespace DigestAlgorithm

def name : DigestAlgorithm → String
  | xxhash64 => "xxhash64"
  | sha256 => "sha256"

def all : List DigestAlgorithm := [xxhash64, sha256]

def ofName? (s : String) : Option DigestAlgorithm := all.find? (·.name == s)

end DigestAlgorithm

structure Settings where
  logLevel : String := "INFO"
  jsonLogs : Bool := false
  /-- nodes of an unknown kind -/
  converterPolicy : Policy := .strict
  /-- widgets without a view -/
  extractorPolicy : Policy := .permissive
  /-- a main view that is no node -/
  bridgePolicy : Policy := .permissive
  /-- the number of levels that a node may have -/
  maxViewDepth : Int := 64
  /-- the number of bytes that a source file may have -/
  maxSourceSize : Int := 1048576
  hotReload : Bool := true
  /-- seconds between two scans of the watched files -/
  watchPollInterval : Float := 0.5
  watchPatterns : List String := ["*.at"]
  fingerprintAlgorithm : DigestAlgorithm := .xxhash64
  /-- blanks for each level of the generated source -/
  indentWidth : Int := 4
  outputSuffix : String := ".py"
deriving Inhabited

end Widgetry
