/-!
# The instruction

What the model is asked to do with the frames of an item.
-/

namespace Captioning

/-- The instruction that goes in front of the frames. The model is to answer with a bare JSON object. -/
def descriptionPrompt : String := "You are analyzing multiple frames extracted from an animated GIF. The frames are shown in chronological order.

Analyze the FULL sequence of action across all frames and return a JSON object:
- \"literal\": Factual description of the complete action/sequence (1-3 sentences, describe what happens from start to finish)
- \"source\": Your best guess at where this is from: movie title, TV show, meme name, video game, news event, YouTube/TikTok trend, etc. Be specific (e.g., \"Spy Kids (2001)\" not just \"movie\"). Use \"unknown\" only if you genuinely cannot identify it.
- \"mood\": Emotional tone or vibe (e.g., \"funny\", \"wholesome\", \"chaotic\", \"satisfying\")
- \"action\": Key actions/verbs (e.g., \"dancing\", \"falling\", \"celebrating\")
- \"context\": When someone might use this GIF in conversation (e.g., \"reaction to good news\")
- \"tags\": Array of 5-10 searchable keywords (include character names, show titles, meme names if recognized)

Respond with ONLY the JSON object, no markdown or extra text."

end Captioning
