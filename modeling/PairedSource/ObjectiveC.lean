import PairedSource.Manifest.Include
import PairedSource.ObjectiveC.Language
import PairedSource.ObjectiveC.Renderer
import PairedSource.Run

namespace PairedSource.ObjectiveC

def engine : Engine where
  language := language
  rules := rules

def frontEnd : FrontEnd Entry where
  build tree config source := (Manifest.load tree config.searchPath source).mapError .error
  renderer := renderer

end PairedSource.ObjectiveC
