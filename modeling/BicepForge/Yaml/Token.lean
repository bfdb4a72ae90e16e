/-!
# YAML tokens

The pieces that a YAML text falls into. Indentation shows as tokens of its own: where a block
collection begins and where it ends.
-/

namespace BicepForge.Yaml

inductive ScalarStyle where
  | plain
  | singleQuoted
  | doubleQuoted
  | literal
  | folded
deriving DecidableEq, Repr

inductive Token where
  | versionDirective (major minor : Nat)
  | tagDirective (handle start : String)
  | documentStart
  | documentEnd
  | blockSequenceStart
  | blockMappingStart
  | blockEnd
  | flowSequenceStart
  | flowSequenceEnd
  | flowMappingStart
  | flowMappingEnd
  | blockEntry
  | flowEntry
  | key
  | value
  | reference (anchor : String)
  | anchor (name : String)
  | tag (handle suffix : String)
  | scalar (style : ScalarStyle) (text : String)
deriving DecidableEq, Repr

inductive YamlError where
  | unreadableCharacter
  | unexpectedCharacter
  | unterminatedScalar
  | invalidEscape
  | misplacedTab
  | misplacedEntry
  | misplacedKey
  | misplacedValue
  | missingColon
  | invalidDirective
  | invalidTag
  | invalidAnchor
  | invalidBlockHeader
  | undefinedHandle
  | unknownAnchor
  | unexpectedToken
  | severalDocuments
  | tooDeep
deriving DecidableEq, Repr

def YamlError.message : YamlError → String
  | unreadableCharacter => "control characters are not allowed"
  | unexpectedCharacter => "found character that cannot start any token"
  | unterminatedScalar => "found unexpected end of a quoted scalar"
  | invalidEscape => "found unknown escape character"
  | misplacedTab => "found a tab character that violates indentation"
  | misplacedEntry => "block sequence entries are not allowed in this context"
  | misplacedKey => "mapping keys are not allowed in this context"
  | misplacedValue => "mapping values are not allowed in this context"
  | missingColon => "could not find expected ':'"
  | invalidDirective => "found an invalid directive"
  | invalidTag => "found an invalid tag"
  | invalidAnchor => "did not find expected alphabetic or numeric character"
  | invalidBlockHeader => "did not find expected comment or line break"
  | undefinedHandle => "found undefined tag handle"
  | unknownAnchor => "unknown anchor"
  | unexpectedToken => "did not find expected node content"
  | severalDocuments => "expected a single document"
  | tooDeep => "recursion limit exceeded"

end BicepForge.Yaml
