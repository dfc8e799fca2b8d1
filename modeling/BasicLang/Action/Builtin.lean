import BasicLang.Action.Device
import BasicLang.Action.File
import BasicLang.Action.Text
import BasicLang.Text.Case

set_option autoImplicit false

namespace BasicLang

namespace Run

def builtin {σ : Type} (devices : Devices σ) : Builtin → Run σ Unit
  | .print => printValue devices
  | .printZone => printZone devices
  | .printNewline => print devices "\n"
  | .printUsing => printUsing devices
  | .selectOutput => selectFile
  | .write => writeValues devices
  | .input => input devices
  | .lineInput => lineInput devices
  | .abs => abs
  | .atn => double Float.atan
  | .cos => double Float.cos
  | .sin => double Float.sin
  | .tan => double Float.tan
  | .exp => exp
  | .log => log
  | .sqr => sqr
  | .int => double Double.floor
  | .fix => double Double.truncate
  | .sgn => sgn
  | .cint => cint
  | .clng => clng
  | .csng => csng
  | .cdbl => double id
  | .rnd => rnd
  | .timer => timer devices
  | .asc => asc
  | .chr => chr
  | .hex => radix 16
  | .oct => radix 8
  | .instr => instr
  | .lcase => mapText Text.lower
  | .ucase => mapText Text.upper
  | .ltrim => mapText Text.trimLeft
  | .rtrim => mapText Text.trimRight
  | .left => takeText Text.left
  | .right => takeText Text.right
  | .mid => mid
  | .len => len
  | .space => space
  | .str => str
  | .string => string
  | .val => val
  | .inkey => inkey devices
  | .cls => onWorld devices.console.clear
  | .beep => onWorld devices.console.beep
  | .locate => locate devices
  | .color => color devices
  | .eof => eof
  | .openFile => openFile
  | .closeFile => closeFile devices
  | .fileInput => fileInput
  | .fileLineInput => fileLineInput
  | .jsonParse => jsonParse
  | .jsonGet => jsonGet
  | .jsonStr => jsonStr
  | .fetch => fetch
  | .wsOpen => wsOpen
  | .wsSend => wsSend devices
  | .wsRecv => wsRecv devices
  | .play => play devices
  | .sound => sound devices
  | .loadSound => loadSound
  | .playSound => playSound devices
  | .ioWrite => ioWrite devices
  | .ioRead => ioRead devices
  | .eventData => eventData
  | .stick => stick devices
  | .strig => strig devices
  | .pointerX => pointerX devices
  | .pointerY => pointerY devices
  | .pointerDown => pointerDown devices
  | .sleep => sleep
  | .randomize => randomize devices
  | .swap => swap
  | .lbound => bound Bounds.lower
  | .ubound => bound Bounds.upper
  | .err => err
  | .hash => hash

end Run

end BasicLang
